import MessageLens.Proofs.Editor.Drawing

/-!
# Rendering annotations that the editor may refuse

Annotations can be older than the text they are drawn in: a line or a column that one asks for may
be gone. Rendering then draws each annotation where it asks to be, at the end of its line, or not at
all, and what is drawn depends on nothing else than the annotations and the text. All else that the
editor holds stays as it is.
-/

namespace MessageLens
set_option autoImplicit false

/-! ## Where an annotation settles -/

namespace Buffer

variable {b : Buffer} {a : Annotation}

/-- Where an annotation settles in a buffer: as it is, at the end of its line if it asks for a place
past that end, and nowhere if there is no such line. -/
def settle (b : Buffer) (a : Annotation) : Option Annotation :=
  ((Text.lines b.text.toList)[a.line.toNat]?).map fun l =>
    if a.placement = .inline ∧ l.length < a.column then a.atEndOfLine else a

/-- Why an annotation settles nowhere. -/
def absence (a : Annotation) : String := "Line " ++ toString a.line ++ " is outside the buffer"

/-- Drawing in a buffer does not change where annotations settle. -/
theorem settle_add (b : Buffer) (layer : String) (a : Annotation) :
    (b.add layer a).settle = b.settle := rfl

/-- An annotation that settles nowhere is refused wherever it is asked for. -/
theorem judge_unsettled (located : 0 ≤ a.line) (unsettled : b.settle a = none) :
    b.judge a = .refused (absence a) ∧ b.judge a.atEndOfLine = .refused (absence a) := by
  have absent := List.getElem?_eq_none_iff.1 (Option.map_eq_none_iff.1 unsettled)
  have beyond : (b.lineCount : Int) ≤ a.line := by
    unfold lineCount
    omega
  exact ⟨if_pos beyond, if_pos beyond⟩

/-- An annotation settles where it is accepted first. -/
theorem judge_settled {a' : Annotation} (located : 0 ≤ a.line) (settled : b.settle a = some a') :
    b.judge a = .accepted ∧ a' = a ∨
      (∃ reason, b.judge a = .refused reason) ∧ a' = a.atEndOfLine ∧ b.judge a' = .accepted := by
  obtain ⟨l, line, rfl⟩ := Option.map_eq_some_iff.1 settled
  have here : a.line = a.line.toNat := by omega
  by_cases past : a.placement = .inline ∧ l.length < a.column
  · rw [judge_line line here, if_pos past, if_pos past]
    refine .inr ⟨⟨_, rfl⟩, rfl, ?_⟩
    rw [judge_line (a := a.atEndOfLine) line here, if_neg]
    rintro ⟨inline, -⟩
    cases inline
  · rw [judge_line line here, if_neg past, if_neg past]
    exact .inl ⟨rfl, rfl⟩

end Buffer

/-! ## Drawing one annotation after the other -/

namespace Host

variable {h : Host} {id : Handle} {b : Buffer} {layer : String} {annotations : List Annotation}

theorem draw_unsettled (isOpen : h.buffers.get? id = some b) {a : Annotation}
    (located : 0 ≤ a.line) (unsettled : b.settle a = none) :
    (surface id layer).draw h a = .refused h (Buffer.absence a) := by
  obtain ⟨refused, refused'⟩ := Buffer.judge_unsettled located unsettled
  simp only [Surface.draw, surface, place, isOpen, refused, refused']

theorem draw_settled (isOpen : h.buffers.get? id = some b) {a a' : Annotation}
    (located : 0 ≤ a.line) (settled : b.settle a = some a') :
    (surface id layer).draw h a =
      .drawn { h with buffers := h.buffers.set id (b.add layer a') } := by
  rcases Buffer.judge_settled located settled with
    ⟨accepted, rfl⟩ | ⟨⟨reason, refused⟩, rfl, accepted⟩
  · exact draw_accepted isOpen layer accepted
  · simp only [Surface.draw, surface, place, isOpen, refused, accepted]

/-- In an open buffer those that settle are drawn, and the others are noted in the log. -/
theorem drawAll_open (isOpen : h.buffers.get? id = some b)
    (located : ∀ a ∈ annotations, 0 ≤ a.line) :
    (surface id layer).drawAll h annotations =
      { state := { h with
          buffers := h.buffers.set id (b.addAll layer (annotations.filterMap b.settle)) }
        placed := (annotations.filterMap b.settle).length
        records := (annotations.filter fun a => (b.settle a).isNone).map fun a =>
          droppedRecord a (Buffer.absence a) } := by
  induction annotations generalizing h b with
  | nil =>
    rw [Surface.drawAll, List.filterMap_nil, Buffer.addAll, List.foldl_nil, Table.set_get? isOpen]
    rfl
  | cons a rest ih =>
    have here := located a List.mem_cons_self
    have later : ∀ a ∈ rest, 0 ≤ a.line := fun a mem => located a (List.mem_cons_of_mem _ mem)
    rw [Surface.drawAll]
    cases settled : b.settle a with
    | none =>
      rw [draw_unsettled isOpen here settled, List.filterMap_cons_none settled]
      simp only [ih isOpen later, List.filter_cons, settled, Option.isNone_none, if_true,
        List.map_cons]
    | some a' =>
      have next := ih (h := { h with buffers := h.buffers.set id (b.add layer a') })
        (b := b.add layer a') (Table.get?_set_self ..) later
      rw [draw_settled isOpen here settled, List.filterMap_cons_some settled]
      simp only [next, Buffer.settle_add, Table.set_set, List.filter_cons, settled,
        Option.isNone_some, Bool.false_eq_true, if_false, List.length_cons]
      rfl

/-- In a buffer that is not open nothing is drawn. -/
theorem drawAll_closed (closed : h.buffers.get? id = none) :
    (surface id layer).drawAll h annotations =
      { state := h
        records := annotations.map fun a => droppedRecord a ("Unknown buffer " ++ id.text) } := by
  induction annotations with
  | nil => rfl
  | cons a rest ih =>
    have refused : (surface id layer).draw h a = .refused h ("Unknown buffer " ++ id.text) := by
      simp only [Surface.draw, surface, place, closed]
    rw [Surface.drawAll, refused]
    simp only [ih, List.map_cons]

/-! ## Rendering -/

theorem render_open (isOpen : h.buffers.get? id = some b)
    (located : ∀ a ∈ annotations, 0 ≤ a.line) :
    (surface id layer).render h annotations =
      { state := { h with
          buffers := h.buffers.set id (b.redrawn layer (annotations.filterMap b.settle)) }
        placed := (annotations.filterMap b.settle).length
        records := (annotations.filter fun a => (b.settle a).isNone).map fun a =>
          droppedRecord a (Buffer.absence a) } := by
  show (surface id layer).drawAll (h.clearLayer id layer) annotations = _
  rw [clearLayer_eq isOpen, drawAll_open
    (b := { b with annotations := b.annotations.erase layer }) (Table.get?_set_self ..) located,
    Table.set_set]
  rfl

theorem render_closed (closed : h.buffers.get? id = none) :
    (surface id layer).render h annotations =
      { state := h
        records := annotations.map fun a => droppedRecord a ("Unknown buffer " ++ id.text) } := by
  show (surface id layer).drawAll (h.clearLayer id layer) annotations = _
  rw [clearLayer_closed closed, drawAll_closed closed]

/-- What the namespace held makes no difference to a rendering. -/
theorem render_outside (isOpen : h.buffers.get? id = some b) {held : Buffer}
    (same : held.outside layer = b.outside layer) :
    (surface id layer).render { h with buffers := h.buffers.set id held } annotations =
      (surface id layer).render h annotations := by
  have cleared : Host.clearLayer { h with buffers := h.buffers.set id held } id layer =
      h.clearLayer id layer := by
    rw [clearLayer_eq isOpen, clearLayer_eq (b := held) (Table.get?_set_self ..), Table.set_set]
    exact congrArg (fun b => { h with buffers := h.buffers.set id b }) same
  exact congrArg (fun h => (surface id layer).drawAll h annotations) cleared

/-- Rendering annotations on lines that count from the front never ends early. In an open buffer the
namespace then holds the annotations that settle, where they settle and in their order, and their
number is given; what it held before makes no difference, and nothing else changes. A buffer that is
not open is left alone. To render the same annotations again changes nothing. -/
theorem render_settles (h : Host) (id : Handle) (layer : String) {annotations : List Annotation}
    (located : ∀ a ∈ annotations, 0 ≤ a.line) :
    let r := (surface id layer).render h annotations
    r.failed = false ∧
    (∀ b, h.buffers.get? id = some b →
      (∃ b', r.state.buffers.get? id = some b' ∧
        b'.drawn layer = annotations.filterMap b.settle ∧
        r.placed = (annotations.filterMap b.settle).length ∧
        b'.contents = b.contents ∧
        ∀ other, other ≠ layer → b'.annotations.get? other = b.annotations.get? other) ∧
      ∀ held : Buffer, held.outside layer = b.outside layer →
        (surface id layer).render { h with buffers := h.buffers.set id held } annotations = r) ∧
    (h.buffers.get? id = none → r.state = h ∧ r.placed = 0) ∧
    r.state = { h with buffers := r.state.buffers } ∧
    (∀ i, i ≠ id → r.state.buffers.get? i = h.buffers.get? i) ∧
    (surface id layer).render r.state annotations = r := by
  intro r
  cases isOpen : h.buffers.get? id with
  | none =>
    have rendered : r = _ := render_closed isOpen
    have same : r.state = h := by rw [rendered]
    refine ⟨by rw [rendered], by simp, fun _ => ⟨same, by rw [rendered]⟩, by rw [same],
      fun i _ => by rw [same], ?_⟩
    rw [same]
  | some b =>
    have rendered : r = _ := render_open isOpen located
    have state : r.state = { h with
        buffers := h.buffers.set id (b.redrawn layer (annotations.filterMap b.settle)) } := by
      rw [rendered]
    refine ⟨by rw [rendered], ?_, by simp, by rw [state], fun i apart => ?_, ?_⟩
    · rintro _ ⟨⟩
      refine ⟨⟨b.redrawn layer (annotations.filterMap b.settle), ?_, Buffer.drawn_redrawn ..,
        by rw [rendered], ?_, fun other apart => ?_⟩, fun held same => render_outside isOpen same⟩
      · rw [state]
        exact Table.get?_set_self ..
      · simp [Buffer.contents]
      · rw [← Buffer.annotations_outside apart, Buffer.outside_redrawn,
          Buffer.annotations_outside apart]
    · rw [state]
      exact Table.get?_set_ne _ apart _
    · rw [state]
      exact render_outside isOpen (Buffer.outside_redrawn ..)

/-- Two lines, the first of which has been shortened; the namespace holds a stale annotation. -/
def shortenedBuffer : Buffer where
  path := "a.ts"
  text := "m.k()\r\n"
  annotations := .ofList [("lens", [⟨9, 9, .inline, [], "old", .resolved, []⟩])]

/-- What is asked for: a place at the end of the first line, one past it, one on the second line and
one behind all lines. -/
def staleAnnotations : List Annotation :=
  [⟨0, 5, .inline, [], "k", .resolved, []⟩, ⟨0, 6, .inline, [], "k", .resolved, []⟩,
    ⟨1, 0, .inline, [], "k", .resolved, []⟩, ⟨2, 0, .inline, [], "k", .resolved, []⟩]

theorem render_settles_stale : (∀ a ∈ staleAnnotations, 0 ≤ a.line) ∧
    ∃ b', ((surface (.number 1) "lens").render { buffers := .ofList [(.number 1, shortenedBuffer)] }
        staleAnnotations).state.buffers.get? (.number 1) = some b' ∧
      b'.drawn "lens" = [⟨0, 5, .inline, [], "k", .resolved, []⟩,
        ⟨0, 0, .eol, [], "k", .resolved, []⟩, ⟨1, 0, .inline, [], "k", .resolved, []⟩] ∧
      ((surface (.number 1) "lens").render { buffers := .ofList [(.number 1, shortenedBuffer)] }
        staleAnnotations).placed = 3 := by
  have located : ∀ a ∈ staleAnnotations, 0 ≤ a.line := by decide
  obtain ⟨-, open', -⟩ := render_settles { buffers := .ofList [(.number 1, shortenedBuffer)] }
    (.number 1) "lens" located
  obtain ⟨⟨b', here, drawn, placed, -⟩, -⟩ := open' shortenedBuffer (by decide +kernel)
  exact ⟨located, b', here, drawn.trans (by decide +kernel), placed.trans (by decide +kernel)⟩

end Host

end MessageLens
