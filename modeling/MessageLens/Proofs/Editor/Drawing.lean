import MessageLens.Annotation.Resolve
import MessageLens.Editor.Host
import MessageLens.Proofs.Reference.Bounds
import MessageLens.Proofs.Table

/-!
# Annotations that the editor accepts

The annotation of a reference stands right after the closing parenthesis of the reference, which is
a place that the editor accepts. Rendering annotations that are all accepted replaces what the
namespace of the buffer held by these annotations, in their order.
-/

namespace MessageLens
set_option autoImplicit false

namespace Buffer

/-- Adds annotations to a namespace in turn. -/
def addAll (b : Buffer) (layer : String) (annotations : List Annotation) : Buffer :=
  annotations.foldl (fun b a => b.add layer a) b

/-- Replaces what a namespace holds. -/
def redrawn (b : Buffer) (layer : String) (annotations : List Annotation) : Buffer :=
  { b with annotations := b.annotations.erase layer }.addAll layer annotations

theorem drawn_add (b : Buffer) (layer : String) (a : Annotation) :
    (b.add layer a).drawn layer = b.drawn layer ++ [a] := by
  simp [add, drawn]

theorem addAll_text (b : Buffer) (layer : String) (annotations : List Annotation) :
    (b.addAll layer annotations).text = b.text := by
  induction annotations generalizing b with
  | nil => rfl
  | cons a rest ih => exact ih (b.add layer a)

theorem addAll_cursor (b : Buffer) (layer : String) (annotations : List Annotation) :
    (b.addAll layer annotations).cursor = b.cursor := by
  induction annotations generalizing b with
  | nil => rfl
  | cons a rest ih => exact ih (b.add layer a)

theorem addAll_path (b : Buffer) (layer : String) (annotations : List Annotation) :
    (b.addAll layer annotations).path = b.path := by
  induction annotations generalizing b with
  | nil => rfl
  | cons a rest ih => exact ih (b.add layer a)

theorem addAll_erase (b : Buffer) (layer : String) (annotations : List Annotation) :
    { b.addAll layer annotations with
      annotations := (b.addAll layer annotations).annotations.erase layer } =
    { b with annotations := b.annotations.erase layer } := by
  induction annotations generalizing b with
  | nil => rfl
  | cons a rest ih =>
    refine (ih (b.add layer a)).trans ?_
    simp [add]

theorem drawn_addAll (b : Buffer) (layer : String) (annotations : List Annotation) :
    (b.addAll layer annotations).drawn layer = b.drawn layer ++ annotations := by
  induction annotations generalizing b with
  | nil => simp [addAll]
  | cons a rest ih =>
    show ((b.add layer a).addAll layer rest).drawn layer = _
    rw [ih, drawn_add, List.append_assoc]
    rfl

@[simp] theorem redrawn_text (b : Buffer) (layer : String) (annotations : List Annotation) :
    (b.redrawn layer annotations).text = b.text := by
  rw [redrawn, addAll_text]

@[simp] theorem redrawn_cursor (b : Buffer) (layer : String) (annotations : List Annotation) :
    (b.redrawn layer annotations).cursor = b.cursor := by
  rw [redrawn, addAll_cursor]

@[simp] theorem redrawn_path (b : Buffer) (layer : String) (annotations : List Annotation) :
    (b.redrawn layer annotations).path = b.path := by
  rw [redrawn, addAll_path]

@[simp] theorem drawn_redrawn (b : Buffer) (layer : String) (annotations : List Annotation) :
    (b.redrawn layer annotations).drawn layer = annotations := by
  rw [redrawn, drawn_addAll]
  simp [drawn]

/-! ## All but a namespace of a buffer -/

/-- A buffer apart from what a namespace of it holds. -/
def outside (layer : String) (b : Buffer) : Buffer :=
  { b with annotations := b.annotations.erase layer }

theorem outside_redrawn (b : Buffer) (layer : String) (annotations : List Annotation) :
    (b.redrawn layer annotations).outside layer = b.outside layer := by
  unfold outside redrawn
  rw [addAll_erase]
  simp only [Table.erase, List.filter_filter, Bool.and_self]

/-- The path, the text and the cursor of a buffer. -/
def contents (b : Buffer) : String × String × (Int × Int) := (b.path, b.text, b.cursor)

theorem annotations_outside {layer other : String} (apart : other ≠ layer) (b : Buffer) :
    (b.outside layer).annotations.get? other = b.annotations.get? other := by
  unfold outside
  rw [Table.get?_erase, if_neg apart]

/-- What was drawn before has no influence. -/
@[simp] theorem redrawn_redrawn (b : Buffer) (layer : String)
    (annotations annotations' : List Annotation) :
    (b.redrawn layer annotations).redrawn layer annotations' = b.redrawn layer annotations' := by
  show ((b.redrawn layer annotations).outside layer).addAll layer annotations' = _
  rw [outside_redrawn]
  rfl

/-! ## What the editor accepts -/

/-- On a line of the buffer only an inline annotation past its end is refused. -/
theorem judge_line {b : Buffer} {a : Annotation} {i : Nat} {l : List Char}
    (line : (Text.lines b.text.toList)[i]? = some l) (here : a.line = i) :
    b.judge a = if a.placement = .inline ∧ l.length < a.column then
      .refused ("Column " ++ toString a.column ++ " is past the end of line " ++ toString a.line)
    else .accepted := by
  have inside : i < (Text.lines b.text.toList).length := (List.getElem?_eq_some_iff.1 line).1
  have length : b.lineLength? a.line = some l.length := by
    have nonneg : ¬ (i : Int) < 0 := by omega
    simp [lineLength?, here, nonneg, line]
  have within : ¬ (b.lineCount : Int) ≤ a.line := by
    rw [here, lineCount]
    omega
  rw [judge, if_neg within, length]
  cases a.placement <;> simp

/-- An inline annotation on a line of the buffer, not past its end, is accepted. -/
theorem judge_inline {b : Buffer} {a : Annotation} {i : Nat} {l : List Char}
    (line : (Text.lines b.text.toList)[i]? = some l) (here : a.line = i)
    (column : a.column ≤ l.length) : b.judge a = .accepted := by
  rw [judge_line line here, if_neg]
  rintro ⟨-, past⟩
  omega

/-- The annotation of a reference in the text of the buffer is accepted. -/
theorem judge_reference {b : Buffer} {receiver : String} {r : Reference}
    (found : r ∈ findReferences receiver b.text) (options : VirtualTextOptions)
    (current : MessageTable) (catalog : Catalog) (locales : List String) :
    b.judge (resolveReference options current catalog locales r) = .accepted := by
  obtain ⟨i, l, hl, hline, -, -, hend⟩ := findReferences_bounds r found
  refine judge_inline hl hline ?_
  show r.colEnd + 1 ≤ l.length
  omega

end Buffer

namespace Host

variable {h : Host} {id : Handle} {b : Buffer}

theorem clearLayer_eq (isOpen : h.buffers.get? id = some b) (layer : String) :
    h.clearLayer id layer =
      { h with buffers := h.buffers.set id
                 { b with annotations := b.annotations.erase layer } } := by
  rw [clearLayer, updateBuffer?, isOpen, Option.map_some, Option.getD_some]

/-- There is nothing to empty in a buffer that is not open. -/
theorem clearLayer_closed (closed : h.buffers.get? id = none) (layer : String) :
    h.clearLayer id layer = h := by
  rw [clearLayer, updateBuffer?, closed, Option.map_none, Option.getD_none]

theorem draw_accepted (isOpen : h.buffers.get? id = some b) (layer : String) {a : Annotation}
    (fits : b.judge a = .accepted) : (surface id layer).draw h a =
      .drawn { h with buffers := h.buffers.set id (b.add layer a) } := by
  simp only [Surface.draw, surface, place, isOpen, fits]

theorem drawAll_accepted {layer : String} {annotations : List Annotation}
    (isOpen : h.buffers.get? id = some b) (fits : ∀ a ∈ annotations, b.judge a = .accepted) :
    (surface id layer).drawAll h annotations =
      { state := { h with buffers := h.buffers.set id (b.addAll layer annotations) }
        placed := annotations.length } := by
  induction annotations generalizing h b with
  | nil =>
    rw [Surface.drawAll, Buffer.addAll, List.foldl_nil, Table.set_get? isOpen, List.length_nil]
  | cons a rest ih =>
    have placed := draw_accepted isOpen layer (fits a List.mem_cons_self)
    have later := ih (h := { h with buffers := h.buffers.set id (b.add layer a) })
      (b := b.add layer a) (Table.get?_set_self ..)
      (fun a' ha' => fits a' (List.mem_cons_of_mem _ ha'))
    rw [Surface.drawAll, placed]
    simp only [later, Table.set_set, List.length_cons]
    rfl

/-- Rendering annotations that are all accepted draws exactly these. -/
theorem render_accepted (layer : String) {annotations : List Annotation}
    (isOpen : h.buffers.get? id = some b) (fits : ∀ a ∈ annotations, b.judge a = .accepted) :
    (surface id layer).render h annotations =
      { state := { h with buffers := h.buffers.set id (b.redrawn layer annotations) }
        placed := annotations.length } := by
  show (surface id layer).drawAll (h.clearLayer id layer) annotations = _
  rw [clearLayer_eq isOpen, drawAll_accepted
    (b := { b with annotations := b.annotations.erase layer }) (Table.get?_set_self ..) fits,
    Table.set_set]
  rfl

end Host

end MessageLens
