import MessageLens.Proofs.Editor.Drawing
import MessageLens.Proofs.Operation
import MessageLens.Session.Drawing

/-!
# Drawing never fails

Bringing buffers up to date succeeds in every state of a session. It draws every annotation of the
buffers it visits where the annotation asks to be, and it changes nothing else but the trace of
events. The order of the visits is of no consequence.
-/

namespace MessageLens.Session
set_option autoImplicit false

open Operation

variable {τ : Type} {s s' t : Session τ} {ids : List Handle} {id : Handle}

/-- A buffer after the session has drawn in it. -/
def redrawn (s : Session τ) (b : Buffer) : Buffer :=
  b.redrawn s.layer (if s.project.isDetected then s.annotationsOfText b.text else [])

/-- `s'` is `s` after the open buffers among `ids` have been redrawn. -/
structure Redrawn (ids : List Handle) (s s' : Session τ) : Prop where
  outside : s' = { s with
    host := { s.host with buffers := s'.host.buffers }
    events := s'.events }
  buffers : ∀ i, s'.host.buffers.get? i =
    (s.host.buffers.get? i).map fun b => if i ∈ ids then s.redrawn b else b

theorem redrawn_redrawn (s : Session τ) (b : Buffer) : s.redrawn (s.redrawn b) = s.redrawn b := by
  simp [redrawn]

@[simp] theorem buffer_ok {b : Buffer} :
    buffer id s = .ok b s' ↔ s.host.buffers.get? id = some b ∧ s = s' := by
  simp only [buffer, bind_ok, read_ok, exists_both_eq, hostPart]
  cases s.host.buffers.get? id with
  | none => simp
  | some b' => simp

@[simp] theorem annotationsFor_ok {as : List Annotation} :
    annotationsFor id s = .ok as s' ↔
      ∃ b, s.host.buffers.get? id = some b ∧ s.annotationsOfText b.text = as ∧ s = s' := by
  simp only [annotationsFor, bind_ok, buffer_ok, get_ok, exists_both_eq, pure_ok]
  constructor
  · rintro ⟨b, _, ⟨isOpen, rfl⟩, drawn, rfl⟩
    exact ⟨b, isOpen, drawn, rfl⟩
  · rintro ⟨b, isOpen, drawn, rfl⟩
    exact ⟨b, s, ⟨isOpen, rfl⟩, drawn, rfl⟩

/-- Every annotation of a text is accepted by a buffer with that text. -/
theorem annotationsOfText_fit (s : Session τ) (b : Buffer) :
    ∀ a ∈ s.annotationsOfText b.text, b.judge a = .accepted := by
  intro a ha
  obtain ⟨r, found, rfl⟩ := List.mem_map.1 ha
  exact Buffer.judge_reference found ..

theorem render_ok {b : Buffer} {annotations : List Annotation}
    (isOpen : s.host.buffers.get? id = some b) (fits : ∀ a ∈ annotations, b.judge a = .accepted) :
    render id annotations s = .ok annotations.length { s with
      host := { s.host with buffers := s.host.buffers.set id (b.redrawn s.layer annotations) }
      events := .cleared id :: s.events } := by
  have drawn := Host.render_accepted s.layer isOpen fits
  simp only [render, emit, hostPart, bind_ok, modify_ok, exists_unit_eq, get_ok, exists_both_eq,
    change_ok, drawn]
  simp

theorem clearBuffer_ok {b : Buffer} (isOpen : s.host.buffers.get? id = some b) :
    clearBuffer id s = .ok () { s with
      host := { s.host with buffers := s.host.buffers.set id (b.redrawn s.layer []) }
      events := .cleared id :: s.events } := by
  have cleared := Host.clearLayer_eq isOpen s.layer
  simp only [clearBuffer, emit, hostPart, bind_ok, modify_ok, exists_unit_eq, get_ok,
    exists_both_eq, change_ok, cleared]
  rfl

namespace Redrawn

theorem refl (s : Session τ) : Redrawn [] s s := ⟨rfl, fun i => by simp⟩

theorem redrawn_eq (h : Redrawn ids s s') (b : Buffer) : s'.redrawn b = s.redrawn b := by
  rw [h.outside]
  rfl

theorem append {ids' : List Handle} (h : Redrawn ids s t) (h' : Redrawn ids' t s') :
    Redrawn (ids ++ ids') s s' := by
  refine ⟨?_, fun i => ?_⟩
  · rw [h'.outside, h.outside]
  · rw [h'.buffers i, h.buffers i, Option.map_map]
    congr 1
    funext b
    simp only [Function.comp_apply, h.redrawn_eq, List.mem_append]
    by_cases first : i ∈ ids <;> by_cases second : i ∈ ids' <;>
      simp [first, second, redrawn_redrawn]

/-- Setting one open buffer to its redrawn form redraws that buffer. -/
theorem of_set {b : Buffer} (isOpen : s.host.buffers.get? id = some b)
    (events : List SessionEvent) :
    Redrawn [id] s { s with
      host := { s.host with buffers := s.host.buffers.set id (s.redrawn b) }
      events := events } := by
  refine ⟨rfl, fun i => ?_⟩
  show (s.host.buffers.set id (s.redrawn b)).get? i = _
  by_cases here : i = id
  · rw [here, Table.get?_set_self, isOpen]
    simp
  · rw [Table.get?_set_ne _ here]
    simp [here]

end Redrawn

/-- A buffer that is not open need not be drawn in. -/
theorem Redrawn.of_closed (closed : s.host.buffers.get? id = none) : Redrawn [id] s s := by
  refine ⟨rfl, fun i => ?_⟩
  by_cases here : i = id
  · rw [here, closed, Option.map_none]
  · simp [here]

/-- An open buffer is drawn in once. -/
theorem updateBuffer_open {b : Buffer} (enabled : s.enabled = true)
    (isOpen : s.host.buffers.get? id = some b) :
    updateBuffer id s = .ok () { s with
      host := { s.host with buffers := s.host.buffers.set id (s.redrawn b) }
      events := .cleared id :: s.events } := by
  have valid : s.host.isValid id = true := Table.contains_iff.2 ⟨b, isOpen⟩
  simp only [updateBuffer, bind_ok, get_ok, exists_both_eq]
  rw [if_pos (by rw [enabled, valid]; rfl)]
  cases detected : s.project.isDetected with
  | true =>
    have rendered := render_ok isOpen (annotationsOfText_fit s b)
    have answer := annotationsFor_ok.2 ⟨b, isOpen, rfl, rfl⟩
    simp only [redrawn, detected, if_true, bind_ok, discard_ok]
    exact ⟨_, s, answer, _, rendered⟩
  | false =>
    simpa only [redrawn, detected, Bool.false_eq_true, if_false] using clearBuffer_ok isOpen

theorem updateBuffer_idle (idle : (s.enabled && s.host.isValid id) = false) :
    updateBuffer id s = .ok () s := by
  simp only [updateBuffer, bind_ok, get_ok, exists_both_eq]
  rw [if_neg (by rw [idle]; exact Bool.false_ne_true)]
  rfl

theorem updateBuffer_ok (id : Handle) (s : Session τ) :
    ∃ s', updateBuffer id s = .ok () s' ∧ Redrawn (if s.enabled then [id] else []) s s' := by
  cases enabled : s.enabled with
  | false =>
    exact ⟨s, updateBuffer_idle (by rw [enabled]; rfl), Redrawn.refl s⟩
  | true =>
    cases isOpen : s.host.buffers.get? id with
    | none =>
      have closed : s.host.isValid id = false := by
        rw [Host.isValid, Table.contains, isOpen, Option.isSome_none]
      exact ⟨s, updateBuffer_idle (by rw [closed, Bool.and_false]), Redrawn.of_closed isOpen⟩
    | some b => exact ⟨_, updateBuffer_open enabled isOpen, Redrawn.of_set isOpen _⟩

/-- Visiting buffers in turn succeeds and redraws those that are open. -/
theorem forM_updateBuffer_ok (ids : List Handle) (s : Session τ) :
    ∃ s', ids.forM updateBuffer s = .ok () s' ∧ Redrawn (if s.enabled then ids else []) s s' := by
  induction ids generalizing s with
  | nil => exact ⟨s, forM_nil_ok.2 rfl, by simpa using Redrawn.refl s⟩
  | cons id rest ih =>
    obtain ⟨t, first, drawn⟩ := updateBuffer_ok id s
    obtain ⟨s', later, drawn'⟩ := ih t
    refine ⟨s', forM_cons_ok.2 ⟨t, first, later⟩, ?_⟩
    have same : t.enabled = s.enabled := by rw [drawn.outside]
    have both := drawn.append drawn'
    rw [same] at both
    cases enabled : s.enabled <;> simpa [enabled] using both

theorem updateAll_ok (s : Session τ) :
    ∃ s', updateAll s = .ok () s' ∧ Redrawn (if s.enabled then s.attached else []) s s' := by
  obtain ⟨s', run, drawn⟩ := forM_updateBuffer_ok s.attached s
  exact ⟨s', by simpa only [updateAll, bind_ok, get_ok, exists_both_eq] using run, drawn⟩

theorem updateBuffer_redrawn {u : Unit} (run : updateBuffer id s = .ok u s') :
    Redrawn (if s.enabled then [id] else []) s s' := by
  obtain ⟨t, run', drawn⟩ := updateBuffer_ok id s
  rw [run] at run'
  cases run'
  exact drawn

theorem updateAll_redrawn {u : Unit} (run : updateAll s = .ok u s') :
    Redrawn (if s.enabled then s.attached else []) s s' := by
  obtain ⟨t, run', drawn⟩ := updateAll_ok s
  rw [run] at run'
  cases run'
  exact drawn

end MessageLens.Session
