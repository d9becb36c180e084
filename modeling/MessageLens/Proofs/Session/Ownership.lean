import MessageLens.Proofs.Session.Blank
import MessageLens.Proofs.Session.Bursts

/-!
# What belongs to a session

A session draws in the buffers that are attached to it, and in them only in its own namespace. The
timers are what might outlive that, since a buffer can be detached or closed while it has one. But
detaching a buffer cancels its timer, the timer of a closed buffer does nothing, and the handle of a
buffer is never given to another one. So in every state that a session comes to, whatever others
draw in the same editor meanwhile, its steps leave alone what is not its own.
-/

namespace MessageLens
set_option autoImplicit false

open Operation

namespace Session

variable {τ α : Type} {s s' r r' : Session τ} {id i : Handle} {step : SessionStep}

/-! ## What every step leaves alone -/

/-- The namespace of the session, how many buffers have been opened, and all of the open buffers
but what that namespace holds. -/
def surroundings (s : Session τ) : String × Nat × (Handle → Option Buffer) :=
  (s.layer, s.host.opened, fun id => (s.host.buffers.get? id).map (·.outside s.layer))

theorem updateBuffer_keeps_surroundings (i : Handle) :
    Keeps surroundings (updateBuffer i : SessionOperation τ Unit) := by
  intro s
  obtain ⟨s', run, drawn⟩ := updateBuffer_ok i s
  have layer : s'.layer = s.layer := by rw [drawn.outside]
  have opened : s'.host.opened = s.host.opened := by rw [drawn.outside]
  rw [leaves_ok run, surroundings, surroundings, layer, opened]
  refine congrArg (fun buffers => (s.layer, s.host.opened, buffers)) (funext fun id => ?_)
  rw [drawn.buffers, Option.map_map]
  congr 1
  funext b
  by_cases visited : id ∈ if s.enabled = true then [i] else []
  · simp [visited, redrawn, Buffer.outside_redrawn]
  · simp [visited]

theorem clearBuffer_keeps_surroundings (i : Handle) :
    Keeps surroundings (clearBuffer i : SessionOperation τ Unit) := by
  intro s
  cases isOpen : s.host.buffers.get? i with
  | none =>
    show surroundings { s with host := s.host.clearLayer i s.layer, events := _ } = _
    rw [Host.clearLayer_closed isOpen]
    rfl
  | some b =>
    rw [leaves_ok (clearBuffer_ok isOpen)]
    refine congrArg (fun buffers => (s.layer, s.host.opened, buffers)) (funext fun id => ?_)
    by_cases here : id = i
    · subst here
      rw [Table.get?_set_self, isOpen, Option.map_some, Option.map_some, Buffer.outside_redrawn]
    · rw [Table.get?_set_ne _ here]

theorem surroundings_still : Still (surroundings (τ := τ)) where
  reading keeps := keeps.comp fun side => (side.layer, side.host.opened,
    fun id => (side.host.buffers.get? id).map (·.outside side.layer))
  project f := Keeps.change (fun _ _ => rfl) f
  drawing := updateBuffer_keeps_surroundings
  previews keeps := keeps.comp fun side => (side.layer, side.opened,
    fun id => (side.buffers.get? id).map (·.outside side.layer))
  timers _ _ := rfl
  attached _ _ := rfl

theorem enable_keeps_surroundings : Keeps surroundings (enable : SessionOperation τ Unit) :=
  Keeps.bind (Keeps.modify fun _ => rfl) fun _ => surroundings_still.updateAll

theorem disable_keeps_surroundings : Keeps surroundings (disable : SessionOperation τ Unit) :=
  Keeps.bind (Keeps.modify fun _ => rfl) fun _ =>
    (Keeps.change surroundings_still.timers _).bind fun _ =>
      clearAll_keeps clearBuffer_keeps_surroundings

theorem toggle_keeps_surroundings : Keeps surroundings (toggle : SessionOperation τ Bool) := by
  intro s
  cases on : s.enabled with
  | true =>
    rw [toggle_disables surroundings_still.emit on]
    exact disable_keeps_surroundings s
  | false =>
    rw [toggle_enables surroundings_still.emit on]
    exact enable_keeps_surroundings s

/-- The step is one of the user in the editor, not one of the session. -/
def Edits : SessionStep → Prop
  | .openBuffer .. | .closeBuffer _ | .setText .. | .setCursor .. => True
  | _ => False

section Clock

variable [Instant τ]

theorem perform_keeps_surroundings (own : ¬ Edits step) :
    Keeps surroundings (perform step : SessionOperation τ SessionAnswer) := by
  have ordinary (ordinary : Ordinary step) :
      Keeps surroundings (perform step : SessionOperation τ SessionAnswer) :=
    surroundings_still.perform ordinary
  cases step with
  | openBuffer | closeBuffer | setText | setCursor => exact absurd trivial own
  | enable => exact enable_keeps_surroundings.bind fun _ => Keeps.pure _
  | disable => exact disable_keeps_surroundings.bind fun _ => Keeps.pure _
  | toggle => exact toggle_keeps_surroundings.bind fun _ => Keeps.pure _
  | _ => exact ordinary trivial

end Clock

/-! ## Buffers that are not attached -/

/-- A buffer, as far as it is not attached. -/
def foreign (id : Handle) (s : Session τ) : Option (Option Buffer) :=
  if id ∈ s.attached then none else some (s.host.buffers.get? id)

theorem foreign_of_not_mem (free : id ∉ s.attached) :
    foreign id s = some (s.host.buffers.get? id) := by
  unfold foreign
  exact if_neg free

theorem foreign_unread : Unread (foreign (τ := τ) id) where
  reading keeps := keeps.comp fun side =>
    if id ∈ side.attached then none else some (side.host.buffers.get? id)

/-- Visiting the attached buffers leaves the others alone. -/
theorem forAttached_keeps_foreign {f : Handle → SessionOperation τ Unit}
    (same : ∀ i, Keeps status (f i))
    (others : ∀ i, i ≠ id → Keeps (fun s => s.host.buffers.get? id) (f i)) :
    Keeps (foreign id) (do (← get).attached.forM f) := by
  intro s
  have attached : (leaves (do (← get).attached.forM f) s).attached = s.attached :=
    congrArg Prod.snd (Keeps.forM same s.attached s)
  unfold foreign
  rw [attached]
  by_cases mine : id ∈ s.attached
  · rw [if_pos mine, if_pos mine]
  · rw [if_neg mine, if_neg mine]
    have apart : ∀ i ∈ s.attached, i ≠ id := by
      rintro i mem rfl
      exact mine mem
    exact congrArg some (Keeps.forM_of_mem (fun i mem => others i (apart i mem)) s)

theorem updateBuffer_keeps_other (apart : i ≠ id) :
    Keeps (fun s => s.host.buffers.get? id) (updateBuffer i : SessionOperation τ Unit) :=
  (updateBuffer_keeps_buffer apart).comp BufferSide.content

theorem clearOpen_keeps_other (apart : i ≠ id) :
    Keeps (fun s => s.host.buffers.get? id) (clearOpen i : SessionOperation τ Unit) := by
  refine (Keeps.read hostPart).bind fun _ => Keeps.ite ?_ (Keeps.pure ())
  refine Keeps.bind (Keeps.modify fun _ => rfl) fun _ => Keeps.get.bind fun r s => ?_
  show (s.host.clearLayer i r.layer).buffers.get? id = _
  cases isOpen : s.host.buffers.get? i with
  | none => rw [Host.clearLayer_closed isOpen]
  | some b => rw [Host.clearLayer_eq isOpen, Table.get?_set_ne _ apart.symm]

theorem updateAll_keeps_foreign : Keeps (foreign id) (updateAll : SessionOperation τ Unit) :=
  forAttached_keeps_foreign status_aside.updateBuffer fun _ apart => updateBuffer_keeps_other apart

theorem enable_keeps_foreign : Keeps (foreign id) (enable : SessionOperation τ Unit) :=
  Keeps.bind (Keeps.modify fun _ => rfl) fun _ => updateAll_keeps_foreign

theorem disable_keeps_foreign : Keeps (foreign id) (disable : SessionOperation τ Unit) := by
  have clears (i : Handle) : Keeps status (clearOpen i : SessionOperation τ Unit) :=
    (Keeps.read hostPart).bind fun _ => Keeps.ite (status_aside.clearBuffer i) (Keeps.pure ())
  exact Keeps.bind (Keeps.modify fun _ => rfl) fun _ =>
    (Keeps.change (fun _ _ => rfl) _).bind fun _ =>
      forAttached_keeps_foreign clears fun _ apart => clearOpen_keeps_other apart

theorem attach_keeps_foreign (apart : i ≠ id) :
    Keeps (foreign id) (attach i : SessionOperation τ Bool) := by
  refine foreign_unread.attach (Keeps.change fun _ _ => rfl) i (Keeps.modify fun s => ?_)
    fun s => ?_
  · have same : id ∈ s.attached ++ [i] ↔ id ∈ s.attached := by simp [Ne.symm apart]
    unfold foreign
    simp only [same]
  · have attached : (leaves (updateBuffer i) s).attached = s.attached :=
      congrArg Prod.snd (status_aside.updateBuffer i s)
    have content : (leaves (updateBuffer i) s).host.buffers.get? id = s.host.buffers.get? id :=
      updateBuffer_keeps_other apart s
    unfold foreign
    rw [attached, content]

variable [Instant τ]

/-- A step of the session that runs no timer leaves the buffers that are not attached as they are,
apart from one that it names. -/
theorem perform_other (own : ¬ Edits step) (timeless : step ≠ .runDue) (free : id ∉ s.attached)
    (unnamed : step ≠ .attach id ∧ step ≠ .updateBuffer id) :
    (leaves (perform step) s).host.buffers.get? id = s.host.buffers.get? id := by
  -- a view that says nothing of an attached buffer is enough, since the buffer is not one before
  have of_foreign (keeps : Keeps (foreign id) (perform step : SessionOperation τ SessionAnswer)) :
      (leaves (perform step) s).host.buffers.get? id = s.host.buffers.get? id := by
    have same := keeps s
    rw [foreign_of_not_mem free] at same
    unfold foreign at same
    split at same
    · cases same
    · exact Option.some.inj same
  have collective (collective : Collective step) :
      (leaves (perform step) s).host.buffers.get? id = s.host.buffers.get? id :=
    of_foreign (foreign_unread.perform updateAll_keeps_foreign
      (fun keeps => keeps.comp fun side =>
        if id ∈ side.attached then none else some (side.buffers.get? id))
      (fun _ _ => rfl) collective)
  cases step with
  | openBuffer | closeBuffer | setText | setCursor => exact absurd trivial own
  | runDue => exact absurd rfl timeless
  | attach i =>
    have apart : i ≠ id := by
      rintro rfl
      exact unnamed.1 rfl
    exact of_foreign ((attach_keeps_foreign apart).bind fun _ => Keeps.pure _)
  | updateBuffer i =>
    have apart : i ≠ id := by
      rintro rfl
      exact unnamed.2 rfl
    exact ((updateBuffer_keeps_other apart).bind fun _ => Keeps.pure _) s
  | detach i => rfl
  | close => rfl
  | enable => exact of_foreign (enable_keeps_foreign.bind fun _ => Keeps.pure _)
  | disable => exact of_foreign (disable_keeps_foreign.bind fun _ => Keeps.pure _)
  | toggle =>
    refine of_foreign (Keeps.bind (fun s => ?_) fun _ => Keeps.pure _)
    cases on : s.enabled with
    | true =>
      rw [toggle_disables foreign_unread.emit on]
      exact disable_keeps_foreign s
    | false =>
      rw [toggle_enables foreign_unread.emit on]
      exact enable_keeps_foreign s
  | _ => exact collective trivial

/-- Running what is due draws in no buffer but those whose timers are due. -/
theorem runDue_other {n : Nat} (run : runDue s = .ok n s')
    (idle : ∀ t ∈ s.timers.scheduler.pending, s.timers.scheduler.isDue t = true →
      t.task.task ≠ .update id) : s'.host.buffers.get? id = s.host.buffers.get? id := by
  have due : s.timers.scheduler.takeDue.1.Perm
      (s.timers.scheduler.pending.filter s.timers.scheduler.isDue) := List.mergeSort_perm _ _
  have start : ∀ t ∈ s.timers.scheduler.takeDue.1, t.task.task ≠ .update id := by
    intro t mem
    rcases List.mem_filter.1 (due.mem_iff.1 mem) with ⟨pending, isDue⟩
    exact idle t pending isDue
  have all := runDue_preserves (n := n) (I := fun rest r => (∀ t ∈ rest, t.task.task ≠ .update id) ∧
      r.host.buffers.get? id = s.host.buffers.get? id)
    (fun t rest r before _ => ⟨fun t' mem => before.1 t' (List.mem_cons_of_mem t mem), before.2⟩)
    (fun t rest r r' before _ fired => by
      have same := (fire_keeps_buffer (before.1 t List.mem_cons_self)).ok fired
      refine ⟨fun t' mem => before.1 t' (List.mem_cons_of_mem t mem), ?_⟩
      exact (congrArg BufferSide.content same).trans before.2)
    ⟨start, rfl⟩ run
  exact all.2

/-! ## Timers belong to attached buffers -/

/-- A step leaves a buffer no timer that it did not have, unless it edits the buffer. -/
theorem Moved.timed (moved : Moved step s s') (ticking : Ticking [] s) (buffer : id ≠ hoverContext)
    (timed : s'.timers.outstanding id ≠ []) :
    s.timers.outstanding id ≠ [] ∨ step = .textChanged id := by
  cases moved with
  | kept left => exact .inl (left ▸ timed)
  | cancelled c reason left =>
    rw [left] at timed
    by_cases own : id = c
    · rw [own, ticking.tight.outstanding_cancel_self] at timed
      exact absurd rfl timed
    · rw [ticking.tight.outstanding_cancel ticking.sound own] at timed
      exact .inl timed
  | emptied reason left =>
    rw [left, ticking.tight.outstanding_cancelAll] at timed
    exact absurd rfl timed
  | triggered c delay task purpose reason left =>
    rw [left] at timed
    by_cases own : id = c
    · subst own
      exact .inr (reason.resolve_left buffer)
    · rw [ticking.tight.outstanding_trigger ticking.sound own] at timed
      exact .inl timed
  | advanced ms left =>
    rw [left] at timed
    exact .inl timed

/-- The timers of a session belong to attached buffers, and these have been opened in the editor,
which gives no handle twice. -/
structure Owned (s : Session τ) : Prop where
  ticking : Ticking [] s
  opened : Opened s
  issued : ∀ id ∈ s.attached, s.host.Issued id
  timed : ∀ id, id ≠ hoverContext → s.timers.outstanding id ≠ [] → id ∈ s.attached

omit [Instant τ] in
theorem Unused.owned (unused : Unused s) : Owned s := by
  refine ⟨unused.ticking, fun id valid => ?_, fun id mem => ?_, fun id _ timed => ?_⟩
  · rcases Table.contains_iff.1 valid with ⟨b, isOpen⟩
    exact unused.opened id b isOpen
  · rw [unused.attached] at mem
    cases mem
  · rw [unused.timers] at timed
    exact absurd rfl timed

theorem perform_opened (step : SessionStep) (s : Session τ) :
    s.host.opened ≤ (leaves (perform step) s).host.opened := by
  cases perform_painted step s with
  | kept _ same => exact Nat.le_of_eq (congrArg Canvas.opened same).symm
  | opened _ _ _ new =>
    have opened := congrArg Canvas.opened new
    exact Nat.le_of_lt (Nat.lt_of_lt_of_eq (Nat.lt_succ_self _) opened.symm)
  | closed _ _ rest => exact Nat.le_of_eq (congrArg Canvas.opened rest).symm
  | lit _ same => exact Nat.le_of_eq (congrArg Canvas.opened same).symm
  | darkened _ wiped => exact Nat.le_of_eq (congrArg Canvas.opened wiped).symm

namespace Owned

theorem perform (owned : Owned s) (step : SessionStep) : Owned (leaves (perform step) s) := by
  refine ⟨owned.ticking.perform step, owned.opened.perform step, fun id mem => ?_,
    fun id buffer timed => ?_⟩
  · have before : s.host.Issued id := by
      rcases attached_before mem with attached | ⟨-, isOpen⟩
      · exact owned.issued id attached
      · exact owned.opened id isOpen
    rcases before with ⟨n, le, same⟩
    exact ⟨n, Nat.le_trans le (perform_opened step s), same⟩
  by_cases due : step = .runDue
  · subst due
    obtain ⟨n, s', run⟩ := runDue_ok s
    have performed : Session.perform .runDue s = .ok (.count n) s' := bind_ok.2 ⟨n, s', run, rfl⟩
    rw [leaves_ok performed] at timed ⊢
    rw [(runDue_draining owned.ticking run).outstanding owned.ticking] at timed
    have before : s.timers.outstanding id ≠ [] := by
      intro none
      rw [none] at timed
      exact timed rfl
    have attached := owned.timed id buffer before
    have same : status s' = status s := (runDue_keeps (fun _ _ => rfl) status_aside.fire).ok run
    rwa [attached_of_status same]
  rcases (perform_moves step due s owned.ticking.closed).1.timed owned.ticking buffer timed with
    before | rfl
  · refine attached_stays (owned.timed id buffer before) ⟨?_, ?_⟩
    -- the steps that would detach the buffer cancel its timer
    · rintro rfl
      exact timed owned.ticking.tight.outstanding_cancel_self
    · rintro rfl
      exact timed owned.ticking.tight.outstanding_cancelAll
  · by_cases mine : id ∈ s.attached
    · exact attached_stays mine ⟨nofun, nofun⟩
    · have ignored : Session.perform (.textChanged id) s = .ok .nothing s :=
        bind_ok.2 ⟨(), s, congrFun (if_neg mine) s, rfl⟩
      rw [leaves_ok ignored] at timed ⊢
      exact owned.timed id buffer timed

omit [Instant τ] in
/-- What others draw is of no consequence. -/
theorem annotated (owned : Owned s) {b : Buffer} (isOpen : s.host.buffers.get? id = some b)
    (annotations : Table String (List Annotation)) :
    Owned { s with host := { s.host with
      buffers := s.host.buffers.set id { b with annotations := annotations } } } := by
  have valid : ∀ i, (s.host.buffers.set id { b with annotations := annotations }).contains i =
      s.host.isValid i := fun i => Table.contains_set_held isOpen
  obtain ⟨⟨sound, tight, purpose, closed⟩, opened, issued, timed⟩ := owned
  exact ⟨⟨sound, tight, purpose, (valid hoverContext).trans closed⟩,
    fun i mine => opened i ((valid i).symm.trans mine), issued, timed⟩

/-- Running what is due changes only attached buffers whose own timers are due. -/
theorem runDue_own (owned : Owned s) {n : Nat} (run : runDue s = .ok n s')
    (changed : s'.host.buffers.get? id ≠ s.host.buffers.get? id) :
    id ∈ s.attached ∧ ∃ t ∈ s.timers.scheduler.pending, s.timers.scheduler.isDue t = true ∧
      t.task = ⟨some id, .update id⟩ := by
  have someone : ∃ t ∈ s.timers.scheduler.pending, s.timers.scheduler.isDue t = true ∧
      t.task.task = .update id := by
    apply Classical.byContradiction
    intro none
    exact changed (runDue_other run fun t pending due own => none ⟨t, pending, due, own⟩)
  obtain ⟨t, pending, due, own⟩ := someone
  have task : t.task = ⟨some id, .update id⟩ := by
    rcases owned.ticking.purpose t (List.mem_append_left _ pending) with ⟨i, task⟩ | ⟨i, task⟩
    · rw [task] at own ⊢
      rw [SessionTask.update.inj own]
    · rw [task] at own
      cases own
  have buffer : id ≠ hoverContext := by
    rintro rfl
    have closed := owned.ticking.closed
    have closed' := (owned.ticking.runDue run).closed
    rw [Host.isValid, Table.contains, Option.isSome_eq_false_iff, Option.isNone_iff_eq_none]
      at closed closed'
    exact changed (closed'.trans closed.symm)
  have timed : t ∈ s.timers.outstanding id :=
    Debouncer.mem_outstanding.2 ⟨pending, by rw [task], owned.ticking.tight.live t pending⟩
  exact ⟨owned.timed id buffer (List.ne_nil_of_mem timed), t, pending, due, task⟩

omit [Instant τ] in
/-- The handle of the buffer that is opened next is in no use. -/
theorem next_free (owned : Owned s) :
    .number (s.host.opened + 1) ∉ s.attached ∧
      s.host.buffers.get? (.number (s.host.opened + 1)) = none ∧
      ∀ t ∈ s.timers.scheduler.pending, t.task.task ≠ .update (.number (s.host.opened + 1)) := by
  have unissued : ¬ s.host.Issued (.number (s.host.opened + 1)) := by
    rintro ⟨n, le, same⟩
    have := Handle.number.inj same
    omega
  have free : .number (s.host.opened + 1) ∉ s.attached := fun mem => unissued (owned.issued _ mem)
  refine ⟨free, ?_, fun t pending own => ?_⟩
  · apply Option.eq_none_iff_forall_ne_some.2
    intro b isOpen
    exact unissued (owned.opened _ (Table.contains_iff.2 ⟨b, isOpen⟩))
  · rcases owned.ticking.purpose t (List.mem_append_left _ pending) with ⟨i, task⟩ | ⟨i, task⟩
    · have timed : t ∈ s.timers.outstanding i :=
        Debouncer.mem_outstanding.2 ⟨pending, by rw [task], owned.ticking.tight.live t pending⟩
      rw [task] at own
      obtain rfl := SessionTask.update.inj own
      exact free (owned.timed _ (by simp [hoverContext]) (List.ne_nil_of_mem timed))
    · rw [task] at own
      cases own

end Owned

/-! ## States that a session comes to -/

/-- The states that a session comes to in an editor that others draw in as well, whether its steps
succeed or fail. -/
inductive Attained (s₀ : Session τ) : Session τ → Prop where
  | start : Attained s₀ s₀
  | performed {s : Session τ} (attained : Attained s₀ s) (step : SessionStep) :
    Attained s₀ (leaves (perform step) s)
  | annotated {s : Session τ} (attained : Attained s₀ s) {id : Handle} {b : Buffer}
    (isOpen : s.host.buffers.get? id = some b) (annotations : Table String (List Annotation)) :
    Attained s₀ { s with host := { s.host with
      buffers := s.host.buffers.set id { b with annotations := annotations } } }

theorem Attained.runSteps {s₀ : Session τ} (attained : Attained s₀ s) (steps : List SessionStep) :
    Attained s₀ (runSteps s steps) := by
  induction steps generalizing s with
  | nil => exact attained
  | cons step rest ih =>
    rw [runSteps_cons]
    exact ih (attained.performed step)

theorem Attained.owned {s₀ : Session τ} (unused : Unused s₀) (attained : Attained s₀ s) :
    Owned s := by
  induction attained with
  | start => exact unused.owned
  | performed _ step ih => exact ih.perform step
  | annotated _ isOpen annotations ih => exact ih.annotated isOpen annotations

/-- What a step of the session leaves alone in the editor. -/
structure Spares (step : SessionStep) (s s' : Session τ) : Prop where
  layer : s'.layer = s.layer
  opened : s'.host.opened = s.host.opened
  contents : ∀ id, (s'.host.buffers.get? id).map Buffer.contents =
    (s.host.buffers.get? id).map Buffer.contents
  namespaces : ∀ id other, other ≠ s.layer →
    (s'.host.buffers.get? id).map (·.annotations.get? other) =
      (s.host.buffers.get? id).map (·.annotations.get? other)
  others : ∀ id, id ∉ s.attached → step ≠ .attach id → step ≠ .updateBuffer id →
    s'.host.buffers.get? id = s.host.buffers.get? id
  timers : step = .runDue → ∀ id, s'.host.buffers.get? id ≠ s.host.buffers.get? id →
    id ∈ s.attached ∧ ∃ t ∈ s.timers.scheduler.pending, s.timers.scheduler.isDue t = true ∧
      t.task = ⟨some id, .update id⟩

/-- In every state that a session comes to, each of its steps leaves alone the path, the text and
the cursor of every buffer, the other namespaces, and the buffers that are neither attached nor
named by the step. What is due changes a buffer only through a timer of its own, while it is
attached, and the buffer that is opened next has no timer and is not attached. -/
theorem steps_spare_others {s₀ : Session τ} (unused : Unused s₀) (attained : Attained s₀ s)
    (step : SessionStep) (own : ¬ Edits step) :
    Spares step s (leaves (perform step) s) ∧
    ∀ path text id s', openBuffer path text s = .ok id s' →
      s.host.buffers.get? id = none ∧ id ∉ s'.attached ∧
        ∀ t ∈ s'.timers.scheduler.pending, t.task.task ≠ .update id := by
  have owned := attained.owned unused
  have same := perform_keeps_surroundings own s
  generalize fields : leaves (perform step) s = s' at same
  obtain ⟨layer, both⟩ := Prod.mk.inj same
  obtain ⟨opened, outside⟩ := Prod.mk.inj both
  rw [layer] at outside
  have due (timely : step = .runDue) : ∃ n, runDue s = .ok n s' := by
    obtain ⟨n, t, run⟩ := runDue_ok s
    have performed : perform .runDue s = .ok (.count n) t := bind_ok.2 ⟨n, t, run, rfl⟩
    rw [timely, leaves_ok performed] at fields
    exact ⟨n, fields ▸ run⟩
  constructor
  · refine ⟨layer, opened, fun id => ?_, fun id other apart => ?_, fun id free attach update => ?_,
      fun timely id changed => ?_⟩
    · have here := congrArg (Option.map Buffer.contents) (congrFun outside id)
      rw [Option.map_map, Option.map_map] at here
      exact here
    · have here := congrArg (Option.map (·.annotations.get? other)) (congrFun outside id)
      simpa only [Option.map_map, Function.comp_def, Buffer.annotations_outside apart] using here
    · by_cases timely : step = .runDue
      · obtain ⟨n, run⟩ := due timely
        apply Classical.byContradiction
        intro changed
        exact free (owned.runDue_own run changed).1
      · exact fields ▸ perform_other own timely free ⟨attach, update⟩
    · obtain ⟨n, run⟩ := due timely
      exact owned.runDue_own run changed
  · intro path text id s' run
    obtain ⟨text, rfl, rfl⟩ := openBuffer_ok run
    obtain ⟨free, closed, untimed⟩ := owned.next_free
    exact ⟨closed, free, untimed⟩

/-- A buffer of a project is edited and closed, and another one is open when its timer is due. -/
def closedWithTimer : List SessionStep :=
  [.openBuffer "/p/a.ts" (some "m.k()"), .attach (.number 1), .textChanged (.number 1),
    .closeBuffer (.number 1), .openBuffer "/p/b.ts" (some "m.k()"), .advance 150]

theorem steps_spare_others_closed : Unused (onDisk nestedProject) ∧
    Attained (onDisk nestedProject) (runSteps (onDisk nestedProject) closedWithTimer) ∧
    (runSteps (onDisk nestedProject) closedWithTimer).timers.scheduler.pending.any
      (runSteps (onDisk nestedProject) closedWithTimer).timers.scheduler.isDue = true ∧
    ¬ Edits .runDue ∧
    Spares .runDue (runSteps (onDisk nestedProject) closedWithTimer)
      (leaves (perform .runDue) (runSteps (onDisk nestedProject) closedWithTimer)) := by
  have fresh : Attained (onDisk nestedProject) (onDisk nestedProject) := .start
  have attained := fresh.runSteps closedWithTimer
  have due : (fun s : Session Int => s.timers.scheduler.pending.any s.timers.scheduler.isDue)
      (runSteps (onDisk nestedProject) closedWithTimer) = true := by
    decide +kernel
  exact ⟨(onDisk_isNew _).unused, attained, due, not_false,
    (steps_spare_others (onDisk_isNew _).unused attained .runDue not_false).1⟩

end Session

end MessageLens
