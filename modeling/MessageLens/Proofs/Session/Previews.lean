import MessageLens.Proofs.Session.Upkeep

/-!
# When previews are current

A session maintains its previews through every step but one: the buffer whose attachment finds the
project is drawn at once, while others that have been attached before it stay as they were. Runs in
which that never happens to a buffer with references are exactly those whose previews are current
in every state.
-/

namespace MessageLens
set_option autoImplicit false

open Operation

variable {τ : Type}

namespace Session

variable {s s' t : Session τ} {batch : List (Timer τ (Job Handle SessionTask))}
  {ids : List Handle} {id : Handle}

/-! ## Operations that previews do not depend on -/

/-- What previews do not depend on is of no consequence for their upkeep. -/
theorem kept_of_keeps {α : Type} {x : SessionOperation τ α} (keeps : Keeps previewSide x) :
    Preserves (Kept batch) x :=
  keeps.preserves fun _ _ same => Kept.of_previewSide same

/-! ## Control -/

theorem detach_kept (id : Handle) :
    Preserves (Kept batch) (detach id : SessionOperation τ Unit) := by
  intro s u s' kept run
  simp only [detach, bind_ok, modify_ok, exists_unit_eq, change_ok] at run
  obtain rfl := run
  have fewer : Kept batch { s with attached := s.attached.filter (· ≠ id) } :=
    ⟨⟨kept.order.sound, kept.order.purpose, kept.order.opened,
      fun i attached => kept.order.attached i (List.mem_filter.1 attached).1, kept.order.blank⟩,
      fun enabled detected i attached =>
        kept.settled enabled detected i (List.mem_filter.1 attached).1⟩
  exact fewer.cancel (by simp)

theorem enable_kept : Preserves (Kept batch) (enable : SessionOperation τ Unit) :=
  fun _ _ _ kept run => (enable_refreshed run).kept
    ⟨kept.order.sound, kept.order.purpose, kept.order.opened, kept.order.attached,
      kept.order.blank⟩

/-- While previews are off, emptying buffers keeps the order. -/
theorem clearBuffer_order (id : Handle) : Preserves (fun s => InOrder batch s ∧ s.enabled = false)
    (clearBuffer id : SessionOperation τ Unit) := by
  intro s u s' before run
  cases isOpen : s.host.buffers.get? id with
  | some b =>
    rw [clearBuffer_ok isOpen] at run
    cases run
    exact ⟨before.1.setBuffer isOpen (fun _ => Buffer.drawn_redrawn ..) _, before.2⟩
  | none =>
    have closed := Host.clearLayer_closed isOpen s.layer
    simp only [clearBuffer, emit, bind_ok, modify_ok, exists_unit_eq, get_ok, exists_both_eq,
      change_ok, hostPart, closed] at run
    obtain rfl := run
    exact ⟨⟨before.1.sound, before.1.purpose, before.1.opened, before.1.attached,
      before.1.blank⟩, before.2⟩

theorem disable_kept : Preserves (Kept batch) (disable : SessionOperation τ Unit) := by
  intro s u s' kept run
  simp only [disable, bind_ok, modify_ok, exists_unit_eq, change_ok, get_ok, exists_both_eq] at run
  have order := kept.order.cancelAll
  have off : InOrder batch { s with enabled := false, timers := s.timers.cancelAll } :=
    ⟨order.sound, order.purpose, order.opened, order.attached, order.blank⟩
  have cleared := Preserves.forM (fun id => (Preserves.read hostPart).bind fun h =>
    Preserves.ite (clearBuffer_order id) (Preserves.pure ())) _ ⟨off, rfl⟩ run
  refine ⟨cleared.1, fun enabled => ?_⟩
  rw [cleared.2] at enabled
  cases enabled

theorem toggle_kept : Preserves (Kept batch) (toggle : SessionOperation τ Bool) := by
  intro s b s' kept run
  simp only [toggle, bind_ok, get_ok, exists_both_eq, ite_ok] at run
  obtain ⟨-, _, t, switched, _, t', logged, answer⟩ | ⟨-, _, t, switched, _, t', logged, answer⟩ :=
    run
  · obtain ⟨-, rfl⟩ := pure_ok.1 answer
    exact kept_of_keeps (emit_keeps_previews _) (disable_kept kept switched) logged
  · obtain ⟨-, rfl⟩ := pure_ok.1 answer
    exact kept_of_keeps (emit_keeps_previews _) (enable_kept kept switched) logged

theorem refresh_kept : Preserves (Kept batch) (refresh : SessionOperation τ Unit) :=
  fun _ _ _ kept run => (refresh_refreshed run).kept kept.order

theorem selectLocale_kept (locale : String) :
    Preserves (Kept batch) (selectLocale locale : SessionOperation τ Bool) := by
  intro s b s' kept run
  cases b with
  | true => exact (selectLocale_refreshed run).kept kept.order
  | false =>
    simp only [selectLocale, bind_ok, read_ok, exists_both_eq, ite_ok] at run
    obtain ⟨-, refused⟩ | ⟨-, _, t, -, ⟨-, _, _, -, run⟩ | ⟨-, run⟩⟩ := run
    · exact kept_of_keeps (refuseLocale_keeps emit_keeps_previews _) kept refused
    · obtain ⟨_, _, -, _, _, -, answer⟩ := run
      cases (pure_ok.1 answer).1
    · obtain ⟨_, _, -, _, _, -, answer⟩ := run
      cases (pure_ok.1 answer).1

theorem onMessageFileChanged_kept (locale : String) :
    Preserves (Kept batch) (onMessageFileChanged locale : SessionOperation τ Unit) := by
  intro s u s' kept run
  cases detected : s.project.isDetected with
  | true => exact (onMessageFileChanged_refreshed detected run).kept kept.order
  | false =>
    simp only [onMessageFileChanged, bind_ok, read_ok, exists_both_eq, ite_ok] at run
    obtain ⟨yes, -⟩ | ⟨-, unchanged⟩ := run
    · exact absurd yes (by simp [projectPart, detected])
    · obtain ⟨-, rfl⟩ := pure_ok.1 unchanged
      exact kept

theorem onSettingsChanged_kept :
    Preserves (Kept batch) (onSettingsChanged : SessionOperation τ Unit) := by
  intro s u s' kept run
  cases found : s.project.root with
  | some root => exact (onSettingsChanged_refreshed found run).kept kept.order
  | none =>
    simp only [onSettingsChanged, bind_ok, read_ok, exists_both_eq, projectPart, found] at run
    obtain ⟨-, rfl⟩ := pure_ok.1 run
    exact kept

theorem close_kept : Preserves (Kept batch) (close : SessionOperation τ Unit) := by
  intro s u s' kept run
  simp only [close, closePanel, emit, bind_ok, change_ok, modify_ok, exists_unit_eq] at run
  obtain rfl := run
  have order := kept.order.cancelAll
  have before : Kept batch { s with timers := s.timers.cancelAll, attached := [] } :=
    ⟨⟨order.sound, order.purpose, order.opened, fun _ attached => absurd attached List.not_mem_nil,
      order.blank⟩, fun _ _ _ attached => absurd attached List.not_mem_nil⟩
  exact Kept.of_previewSide (by rfl) before

/-! ## Time -/

theorem closeHover_kept : Preserves (Kept batch) (closeHover : SessionOperation τ Unit) := by
  intro s u s' kept run
  simp only [closeHover, bind_ok, change_ok, exists_unit_eq] at run
  exact kept_of_keeps closePanel_keeps_previews (kept.cancel kept.order.hover_free) run

theorem onTextChanged_kept [Instant τ] (id : Handle) :
    Preserves (Kept batch) (onTextChanged id : SessionOperation τ Unit) := by
  intro s u s' kept run
  simp only [onTextChanged, bind_ok, get_ok, exists_both_eq, ite_ok] at run
  obtain ⟨-, started⟩ | ⟨-, unchanged⟩ := run
  · rw [startTimer_ok started]
    exact ⟨kept.order.trigger (.inl ⟨id, rfl⟩) _, kept.settled.trigger (by simp) _ _⟩
  · obtain ⟨-, rfl⟩ := pure_ok.1 unchanged
    exact kept

theorem onCursorHold_kept [Instant τ] (id : Handle) :
    Preserves (Kept batch) (onCursorHold id : SessionOperation τ Unit) := by
  intro s u s' kept run
  simp only [onCursorHold, bind_ok, get_ok, exists_both_eq, ite_ok] at run
  obtain ⟨-, started⟩ | ⟨-, unchanged⟩ := run
  · rw [startTimer_ok started]
    exact ⟨kept.order.trigger (.inr ⟨id, rfl⟩) _, kept.settled.trigger (by simp) _ _⟩
  · obtain ⟨-, rfl⟩ := pure_ok.1 unchanged
    exact kept

/-- An edit that is announced at once leaves its buffer with a timer, if the buffer is attached. -/
theorem edit_kept [Instant τ] (id : Handle) (text : String) :
    Preserves (Kept batch) (do
      changeBuffer id fun b => { b with text := text }
      onTextChanged id : SessionOperation τ Unit) := by
  intro s u s' kept run
  obtain ⟨_, t, changed, announced⟩ := bind_ok.1 run
  have order := changeBuffer_order kept.order (fun _ => by rfl) changed
  have settled := changeBuffer_settled kept.settled changed
  simp only [onTextChanged, bind_ok, get_ok, exists_both_eq, ite_ok] at announced
  obtain ⟨-, started⟩ | ⟨detached, unchanged⟩ := announced
  · rw [startTimer_ok started]
    exact ⟨order.trigger (.inl ⟨id, rfl⟩) _, settled.trigger (by simp) _ _⟩
  · obtain ⟨-, rfl⟩ := pure_ok.1 unchanged
    refine ⟨order, fun enabled detected i attached => ?_⟩
    obtain own | rest := settled enabled detected i attached
    · exact absurd (List.mem_singleton.1 own ▸ attached) detached
    · exact .inr rest

/-- The timer of a buffer settles the buffer when it fires. -/
theorem fire_kept {c : Handle} (order : InOrder batch s) (settled : SettledBut [c] s)
    {u : Unit} (run : fire (.update c) s = .ok u s') : Kept batch s' := by
  simp only [fire, bind_ok, get_ok, exists_both_eq, ite_ok] at run
  obtain ⟨-, updated⟩ | ⟨idle, unchanged⟩ := run
  · have drawn := updateBuffer_redrawn updated
    exact ⟨order.redrawn drawn, settled.redrawn drawn⟩
  · obtain ⟨-, rfl⟩ := pure_ok.1 unchanged
    refine ⟨order, fun enabled detected i attached => ?_⟩
    obtain own | rest := settled enabled detected i attached
    · refine .inr (.inr fun b isOpen => ?_)
      rw [List.mem_singleton.1 own] at isOpen
      exact absurd (by rw [enabled]; exact Table.contains_iff.2 ⟨b, isOpen⟩) idle
    · exact .inr rest

/-- The state in which the task of a timer is run: the timer has fired, and its context is free. -/
def firing (s : Session τ) (t : Timer τ (Job Handle SessionTask)) : Session τ :=
  { s with
    timers := Debouncer.release
      { s.timers with scheduler := s.timers.scheduler.markFired t.id } t }

theorem InOrder.firing {t : Timer τ (Job Handle SessionTask)} (order : InOrder (t :: batch) s) :
    InOrder batch (firing s t) := by
  refine ⟨order.sound.fire, fun t' mem => order.purpose t' ?_, order.opened, order.attached,
    order.blank⟩
  have pending : (Session.firing s t).timers.scheduler.pending = s.timers.scheduler.pending := by
    rw [Session.firing, Debouncer.release_scheduler]
    rfl
  rw [pending] at mem
  exact List.mem_append.2 ((List.mem_append.1 mem).imp_right (List.mem_cons_of_mem t))

/-- A timer that fires leaves no buffer without one but that of its own context. -/
theorem SettledBut.firing {t : Timer τ (Job Handle SessionTask)} (settled : SettledBut [] s)
    {c : Handle} (owner : t.task.context = some c) : SettledBut [c] (firing s t) := by
  intro enabled detected id attached
  by_cases own : id = c
  · exact .inl (own ▸ List.mem_singleton_self id)
  · have other : t.task.context ≠ some id := fun same =>
      own (Option.some.inj (same.symm.trans owner))
    refine .inr ((settled enabled detected id attached).resolve_left List.not_mem_nil
      |>.imp_left fun pending => ?_)
    exact (Debouncer.isPending_release other).trans pending

theorem fireTimer_kept {t : Timer τ (Job Handle SessionTask)} (kept : Kept (t :: batch) s)
    {u : Unit} (run : fire t.task.task (firing s t) = .ok u s') : Kept batch s' := by
  have order := kept.order.firing
  obtain ⟨c, purpose⟩ | ⟨id, purpose⟩ :=
    kept.order.purpose t (List.mem_append_right _ List.mem_cons_self)
  · rw [purpose] at run
    exact fire_kept order (kept.settled.firing (by rw [purpose])) run
  · rw [purpose] at run
    have settled := kept.settled.firing (t := t) (c := hoverContext) (by rw [purpose])
    have before : Kept batch (firing s t) := by
      refine ⟨order, fun enabled detected id attached => ?_⟩
      refine .inr ((settled enabled detected id attached).resolve_left fun own => ?_)
      exact order.hover_free (List.mem_singleton.1 own ▸ attached)
    refine kept_of_keeps (Keeps.get.bind fun _ => ?_) before run
    exact Keeps.ite (showHover_keeps_previews id).discard (Keeps.pure ())

/-- The place of the scheduler in a session. -/
def schedulerPart : Focus (Session τ) (Scheduler τ (Job Handle SessionTask)) where
  get s := s.timers.scheduler
  put s x := { s with timers := { s.timers with scheduler := x } }

theorem runBatch_kept {n : Nat} (kept : Kept batch s)
    (run : Scheduler.runBatch schedulerPart (fun t => do
      timersPart.change (·.release t)
      fire t.task.task) batch s = .ok n s') : Kept [] s' := by
  induction batch generalizing s n with
  | nil =>
    obtain ⟨-, rfl⟩ := pure_ok.1 run
    exact kept
  | cons t rest ih =>
    simp only [Scheduler.runBatch, bind_ok, read_ok, exists_both_eq, ite_ok, change_ok,
      exists_unit_eq] at run
    obtain ⟨-, _, t₁, fired, m, t₂, later, answer⟩ | ⟨inactive, later⟩ := run
    · obtain ⟨-, rfl⟩ := pure_ok.1 answer
      exact ih (fireTimer_kept kept fired) later
    · refine ih ⟨⟨kept.order.sound.skip inactive, fun t' mem => kept.order.purpose t' ?_,
        kept.order.opened, kept.order.attached, kept.order.blank⟩, kept.settled⟩ later
      exact List.mem_append.2 ((List.mem_append.1 mem).imp_right (List.mem_cons_of_mem t))

theorem runDue_kept [Instant τ] : Preserves (Kept []) (runDue : SessionOperation τ Nat) := by
  intro s n s' kept run
  obtain ⟨due, t, taken, run⟩ := bind_ok.1 run
  obtain ⟨rfl, rfl⟩ := update_ok.1 taken
  have taken : Kept s.timers.scheduler.takeDue.1 { s with
      timers := { s.timers with scheduler := s.timers.scheduler.takeDue.2 } } := by
    refine ⟨⟨by simpa using kept.order.sound.takeDue, fun t mem => kept.order.purpose t ?_,
      kept.order.opened, kept.order.attached, kept.order.blank⟩, kept.settled⟩
    rw [List.append_nil]
    exact Scheduler.mem_takeDue.1 mem
  exact runBatch_kept taken run

theorem poll_kept : Preserves (Kept batch) (poll : SessionOperation τ (List Path)) := by
  refine (Preserves.read _).bind fun w => ?_
  induction w.watches with
  | nil => exact Preserves.pure []
  | cons x rest ih =>
    refine (kept_of_keeps (Keeps.get.bind fun _ => keeps_attempt _ _)).bind fun stamp =>
      Preserves.ite ih ((Preserves.read _).bind fun w => ?_)
    split
    · exact ih
    · refine (kept_of_keeps (watcher_keeps_previews _)).bind fun _ =>
        (kept_of_keeps (emit_keeps_previews _)).bind fun _ =>
        (Preserves.forM (fun callback => ?_) _).bind fun _ => ih.bind fun _ => Preserves.pure _
      cases callback with
      | settings => exact onSettingsChanged_kept
      | messages locale => exact onMessageFileChanged_kept locale

/-! ## Attaching -/

/-- The debounce timer of a buffer is outstanding. -/
def Awaits (s : Session τ) (id : Handle) : Prop :=
  ∃ t ∈ s.timers.scheduler.pending,
    t.task.context = some id ∧ s.timers.handles.get? id = some t.id

/-- While the session is switched on and has a project, every open attached buffer whose timer is
not outstanding shows its annotations. -/
def PreviewsCurrent (s : Session τ) : Prop :=
  s.enabled = true → s.project.isDetected = true →
    ∀ id ∈ s.attached, ∀ b, s.host.buffers.get? id = some b → ¬ s.Awaits id →
      annotationsFor id s = .ok (b.drawn s.layer) s

/-- A buffer that is attached, open and without a timer has references. -/
def HasIdleReferences (s : Session τ) : Prop :=
  ∃ id ∈ s.attached, ¬ s.Awaits id ∧
    ∃ b, s.host.buffers.get? id = some b ∧ findReferences s.options.receiver b.text ≠ []

theorem Kept.current (kept : Kept [] s) : PreviewsCurrent s := by
  intro enabled detected id attached b isOpen idle
  obtain none | pending | current := kept.settled enabled detected id attached
  · cases none
  · exact absurd (kept.order.sound.isPending_iff.1 pending) idle
  · exact annotationsFor_ok.2 ⟨b, isOpen, (current b isOpen).symm, rfl⟩

theorem InOrder.looked (order : InOrder batch s) (looked : Looked s t) : InOrder batch t := by
  obtain ⟨-, layer, attached, timers, host⟩ := looked.same
  refine ⟨?_, ?_, ?_, ?_, fun noRoot => ?_⟩
  · rw [timers]; exact order.sound
  · rw [timers]; exact order.purpose
  · rw [host]; exact order.opened
  · rw [attached, host]; exact order.attached
  · rw [host, layer]
    obtain ⟨before, -⟩ | ⟨-, rfl⟩ := looked
    · exact order.blank before
    · exact order.blank noRoot

theorem InOrder.attach {b : Buffer} (order : InOrder batch s)
    (isOpen : s.host.buffers.get? id = some b) :
    InOrder batch { s with attached := s.attached ++ [id] } := by
  refine ⟨order.sound, order.purpose, order.opened, fun i mem => ?_, order.blank⟩
  obtain old | new := List.mem_append.1 mem
  · exact order.attached i old
  · exact order.opened i b (List.mem_singleton.1 new ▸ isOpen)

/-- A buffer without a timer that has no references needs no annotations once the project is
found. -/
theorem InOrder.current_of_unread (order : InOrder batch s) (noRoot : s.project.root = none)
    (options : t.options = s.options) (layer : t.layer = s.layer) (host : t.host = s.host)
    (unread : ∀ b, s.host.buffers.get? id = some b →
      findReferences s.options.receiver b.text = []) : Current t id := by
  intro b isOpen
  rw [host] at isOpen
  rw [layer, order.blank noRoot id b isOpen, annotationsOfText, resolveReferences, options,
    unread b isOpen, List.map_nil]

/-- Attaching maintains the previews unless it finds the project while another buffer has
references. -/
theorem attach_kept {b : Bool} (kept : Kept [] s) (run : attach id s = .ok b s')
    (noticed : s.project.root = none → s'.enabled = true → s'.project.isDetected = true →
      ¬ HasIdleReferences s) : Kept [] s' := by
  obtain rfl | ⟨free, ⟨b₀, isOpen⟩, t, looked, drawn⟩ := attach_ok run
  · exact kept
  obtain ⟨options, layer, attached, timers, host⟩ := looked.same
  have order := (kept.order.looked looked).attach (host ▸ isOpen)
  have settled : SettledBut [id] { t with attached := t.attached ++ [id] } := by
    intro enabled detected i mem
    obtain old | new := List.mem_append.1 mem
    · rw [attached] at old
      refine .inr ?_
      obtain ⟨before, -⟩ | ⟨-, rfl⟩ := looked
      · cases pending : s.timers.isPending i with
        | true => exact .inl (by rw [timers]; exact pending)
        | false =>
          have idle : ¬ s.Awaits i := fun awaits => by
            rw [kept.order.sound.isPending_iff.2 awaits] at pending
            cases pending
          refine .inr (kept.order.current_of_unread before options layer host fun b here => ?_)
          refine Decidable.byContradiction fun references => ?_
          refine noticed before ?_ ?_ ⟨i, old, idle, b, here, references⟩
          · rw [drawn.outside]; exact enabled
          · rw [drawn.outside]; exact detected
      · exact (kept.settled enabled detected i old).resolve_left List.not_mem_nil
    · exact .inl new
  exact ⟨order.redrawn drawn, settled.redrawn drawn⟩

/-- An attachment that finds the project while another buffer has references leaves that one as it
was, with nothing drawn. -/
theorem attach_overlooks {b : Bool} (kept : Kept [] s) (run : attach id s = .ok b s')
    (noRoot : s.project.root = none) (enabled : s'.enabled = true)
    (detected : s'.project.isDetected = true) (references : HasIdleReferences s) :
    ¬ PreviewsCurrent s' := by
  intro current
  obtain rfl | ⟨free, -, t, looked, drawn⟩ := attach_ok run
  · rw [ProjectState.isDetected, noRoot] at detected
    cases detected
  obtain ⟨options, layer, attached, timers, host⟩ := looked.same
  obtain ⟨other, mem, idle, b, isOpen, found⟩ := references
  have differ : other ∉ (if t.enabled then [id] else []) := by
    intro visited
    split at visited
    · exact free (List.mem_singleton.1 visited ▸ mem)
    · cases visited
  have after : s'.host.buffers.get? other = some b := by
    rw [drawn.buffers other]
    simp only [host, isOpen, Option.map_some, if_neg differ]
  have shown := current enabled detected other
    (by rw [drawn.outside]; exact List.mem_append_left _ (attached ▸ mem)) b after
    (by rw [Awaits, drawn.outside]; exact timers ▸ idle)
  obtain ⟨b', isOpen', annotations, -⟩ := annotationsFor_ok.1 shown
  obtain rfl : b = b' := Option.some.inj (after.symm.trans isOpen')
  have layer' : s'.layer = s.layer := by rw [drawn.outside]; exact layer
  have options' : s'.options = s.options := by rw [drawn.outside]; exact options
  rw [layer', kept.order.blank noRoot other b isOpen, annotationsOfText, resolveReferences,
    options', List.map_eq_nil_iff] at annotations
  exact found annotations

end Session

/-! ## Runs -/

/-- What happens to a session: a step, or an edit that is announced at once. -/
inductive Move where
  | act (step : SessionStep)
  | edit (id : Handle) (text : String)
  deriving DecidableEq, Repr

namespace Move

variable [Instant τ]

/-- Makes a move. -/
def perform : Move → SessionOperation τ Unit
  | .act step => discard (Session.perform step)
  | .edit id text => do
    discard (Session.perform (.setText id text))
    discard (Session.perform (.textChanged id))

/-- Edits are announced, and messages are not loaded without being displayed. -/
def Announced : Move → Prop
  | .act (.setText _ _) => False
  | .act .loadAllLocales => False
  | _ => True

/-- An attachment finds the project and overlooks a buffer that is attached already. -/
def Overlooks (move : Move) (s s' : Session τ) : Prop :=
  (∃ id, move = .act (.attach id)) ∧ s.project.root = none ∧ s'.enabled = true ∧
    s'.project.isDetected = true ∧ s.HasIdleReferences

end Move

namespace Session

variable [Instant τ] {s s' s₀ : Session τ} {moves : List Move}

omit [Instant τ] in
theorem IsNew.kept (new : IsNew s) : Kept [] s := by
  refine ⟨⟨?_, ?_, new.opened, ?_, fun _ => new.blank⟩, ?_⟩
  · rw [new.timers]; exact Debouncer.Sound.start _
  · rw [new.timers]; simp
  · rw [new.attached]; simp
  · intro _ _ id attached
    rw [new.attached] at attached
    cases attached

/-- Every step maintains the previews, except an attachment, and an edit or a load of messages that
is not announced. -/
theorem perform_kept {step : SessionStep} (announced : (Move.act step).Announced)
    (attaching : ∀ id, step ≠ .attach id) :
    Preserves (Kept []) (perform step : SessionOperation τ SessionAnswer) := by
  cases step with
  | openBuffer path text =>
    refine Preserves.bind (fun s id s' kept run => ?_) fun _ => Preserves.pure _
    obtain ⟨text, -, rfl⟩ := openBuffer_ok run
    exact kept.openBuffer path text
  | closeBuffer id =>
    refine Preserves.bind (fun s u s' kept run => ?_) fun _ => Preserves.pure _
    obtain rfl := change_ok.1 run
    exact kept.closeBuffer id
  | setText id text => exact announced.elim
  | setCursor id line column =>
    exact (changeBuffer_kept (fun _ => by rfl) (fun _ => by rfl) id).bind fun _ => Preserves.pure _
  | attach id => exact absurd rfl (attaching id)
  | detach id => exact (detach_kept id).bind fun _ => Preserves.pure _
  | textChanged id => exact (onTextChanged_kept id).bind fun _ => Preserves.pure _
  | showHover id =>
    exact (kept_of_keeps (showHover_keeps_previews id)).bind fun _ => Preserves.pure _
  | closeHover => exact closeHover_kept.bind fun _ => Preserves.pure _
  | cursorHold id => exact (onCursorHold_kept id).bind fun _ => Preserves.pure _
  | cursorMoved id => exact closeHover_kept.bind fun _ => Preserves.pure _
  | updateBuffer id => exact (updateBuffer_kept id).bind fun _ => Preserves.pure _
  | updateAll => exact updateAll_kept.bind fun _ => Preserves.pure _
  | enable => exact enable_kept.bind fun _ => Preserves.pure _
  | disable => exact disable_kept.bind fun _ => Preserves.pure _
  | toggle => exact toggle_kept.bind fun _ => Preserves.pure _
  | refresh => exact refresh_kept.bind fun _ => Preserves.pure _
  | selectLocale locale => exact (selectLocale_kept locale).bind fun _ => Preserves.pure _
  | loadAllLocales => exact announced.elim
  | messageFileChanged locale =>
    exact (onMessageFileChanged_kept locale).bind fun _ => Preserves.pure _
  | settingsChanged => exact onSettingsChanged_kept.bind fun _ => Preserves.pure _
  | close => exact close_kept.bind fun _ => Preserves.pure _
  | advance ms =>
    refine Preserves.bind (fun s u s' kept run => ?_) fun _ => Preserves.pure _
    obtain rfl := change_ok.1 run
    exact ⟨⟨kept.order.sound.advance ms, kept.order.purpose, kept.order.opened,
      kept.order.attached, kept.order.blank⟩, kept.settled⟩
  | runDue => exact runDue_kept.bind fun _ => Preserves.pure _
  | poll => exact poll_kept.bind fun _ => Preserves.pure _
  | change c =>
    exact (kept_of_keeps (changeFiles_keeps_previews c)).bind fun _ => Preserves.pure _

theorem move_kept {move : Move} {u : Unit} (announced : move.Announced) (kept : Kept [] s)
    (run : move.perform s = .ok u s') (noticed : ¬ move.Overlooks s s') : Kept [] s' := by
  cases move with
  | act step =>
    obtain ⟨answer, ran⟩ := discard_ok.1 run
    by_cases attaching : ∃ id, step = .attach id
    · obtain ⟨id, rfl⟩ := attaching
      obtain ⟨b, t, attached, answered⟩ := bind_ok.1 ran
      obtain ⟨-, rfl⟩ := pure_ok.1 answered
      refine attach_kept kept attached fun noRoot enabled detected references => noticed ?_
      exact ⟨⟨id, rfl⟩, noRoot, enabled, detected, references⟩
    · exact perform_kept announced (fun id same => attaching ⟨id, same⟩) kept ran
  | edit id text =>
    obtain ⟨_, t, set, announcing⟩ := bind_ok.1 run
    obtain ⟨_, set⟩ := discard_ok.1 set
    obtain ⟨_, announcing⟩ := discard_ok.1 announcing
    obtain ⟨_, t₁, edited, answered⟩ := bind_ok.1 set
    obtain ⟨-, rfl⟩ := pure_ok.1 answered
    obtain ⟨_, t₂, changed, answered⟩ := bind_ok.1 announcing
    obtain ⟨-, rfl⟩ := pure_ok.1 answered
    exact edit_kept id text kept (bind_ok.2 ⟨_, _, edited, changed⟩)

theorem overlooks_not_current {move : Move} {u : Unit} (kept : Kept [] s)
    (run : move.perform s = .ok u s') (overlooks : move.Overlooks s s') : ¬ PreviewsCurrent s' := by
  obtain ⟨⟨id, rfl⟩, noRoot, enabled, detected, references⟩ := overlooks
  obtain ⟨answer, ran⟩ := discard_ok.1 run
  obtain ⟨b, t, attached, answered⟩ := bind_ok.1 ran
  obtain ⟨-, rfl⟩ := pure_ok.1 answered
  exact attach_overlooks kept attached noRoot enabled detected references

/-- Nothing is overlooked up to some point of a run. -/
def NothingOverlooked (s₀ : Session τ) (moves : List Move) : Prop :=
  ∀ before move after, moves = before ++ move :: after → ∀ s s' u,
    Run Move.perform s₀ before s → move.perform s = .ok u s' → ¬ move.Overlooks s s'

theorem run_kept (new : IsNew s₀) (run : Run Move.perform s₀ moves s)
    (announced : ∀ move ∈ moves, move.Announced)
    (noticed : ∀ before move after, moves = before ++ move :: after → ∀ s s' u,
      Run Move.perform s₀ before s → move.perform s = .ok u s' → Kept [] s →
        ¬ move.Overlooks s s') : Kept [] s := by
  induction run with
  | start => exact new.kept
  | @next moves s s' move u ran performed ih =>
    have kept := ih (fun m mem => announced m (List.mem_append_left _ mem))
      fun before m after split => noticed before m (after ++ [move]) (by rw [split]; simp)
    exact move_kept (announced move (by simp)) kept performed
      (noticed moves move [] rfl s s' u ran performed kept)

/-- Previews are current in every state of a run exactly when the run overlooks nothing. -/
theorem previews_current_iff (new : IsNew s₀) (announced : ∀ move ∈ moves, move.Announced) :
    (∀ before after, moves = before ++ after → ∀ s, Run Move.perform s₀ before s →
      PreviewsCurrent s) ↔ NothingOverlooked s₀ moves := by
  constructor
  · intro current before move after split s s' u run performed overlooks
    have shown := current (before ++ [move]) after (by rw [split]; simp) s' (run.next performed)
    refine overlooks_not_current (run_kept new run (fun m mem => announced m ?_) ?_) performed
      overlooks shown
    · rw [split]; exact List.mem_append_left _ mem
    · intro before' m after' split' t t' u ran performed' kept overlooks'
      refine overlooks_not_current kept performed' overlooks' ?_
      exact current (before' ++ [m]) (after' ++ move :: after) (by rw [split, split']; simp) t'
        (ran.next performed')
  · intro noticed before after split s run
    refine (run_kept new run (fun m mem => announced m ?_) ?_).current
    · rw [split]; exact List.mem_append_left _ mem
    · intro before' m after' split' t t' u ran performed _
      exact noticed before' m (after' ++ after) (by rw [split, split']; simp) t t' u ran performed

/-- A buffer outside of the project is attached before one inside. -/
def outsideFirst : List Move :=
  [.act (.openBuffer "/a.ts" (some "m.k()")), .act (.attach (.number 1)),
    .act (.openBuffer "/p/b.ts" (some "")), .act (.attach (.number 2))]

/-- The buffer outside is not drawn although the project has been found. -/
theorem outside_buffer_stale : IsNew (onDisk nestedProject) ∧
    (∀ move ∈ outsideFirst, move.Announced) ∧
    ∃ s, Run Move.perform (onDisk nestedProject) outsideFirst s ∧ ¬ PreviewsCurrent s := by
  refine ⟨onDisk_isNew _, by simp [outsideFirst, Move.Announced], ?_⟩
  obtain ⟨u, s, all, stale⟩ := ok_of_succeedsWith
    (x := outsideFirst.forM fun move => discard move.perform) (s := onDisk nestedProject)
    (p := fun _ s => s.enabled && s.project.isDetected && (.number 1 ∈ s.attached) &&
      s.timers.scheduler.pending.isEmpty && (s.host.buffers.get? (.number 1)).any fun b =>
        b.drawn s.layer ≠ s.annotationsOfText b.text) (by decide +kernel)
  refine ⟨s, Run.of_forM all, fun current => ?_⟩
  simp only [Bool.and_eq_true, decide_eq_true_eq, Option.any_eq_true, List.isEmpty_iff] at stale
  obtain ⟨⟨⟨⟨enabled, detected⟩, attached⟩, idle⟩, b, isOpen, differ⟩ := stale
  have shown := current enabled detected _ attached b isOpen (by simp [Awaits, idle])
  obtain ⟨b', isOpen', annotations, -⟩ := annotationsFor_ok.1 shown
  obtain rfl : b = b' := Option.some.inj (isOpen.symm.trans isOpen')
  exact differ annotations.symm

theorem previews_current_iff_outsideFirst : IsNew (onDisk nestedProject) ∧
    (∀ move ∈ outsideFirst, move.Announced) ∧
    ((∀ before after, outsideFirst = before ++ after → ∀ s,
      Run Move.perform (onDisk nestedProject) before s → PreviewsCurrent s) ↔
      NothingOverlooked (onDisk nestedProject) outsideFirst) := by
  have announced : ∀ move ∈ outsideFirst, move.Announced := by
    simp [outsideFirst, Move.Announced]
  exact ⟨onDisk_isNew _, announced, previews_current_iff (onDisk_isNew _) announced⟩

end Session

end MessageLens
