import MessageLens.Proofs.Session.Failing
import MessageLens.Proofs.Session.Upkeep
import MessageLens.Proofs.Timer.Firing
import MessageLens.Proofs.Timer.Marks

/-!
# What a session does with its timers

Few steps touch the timers of a session, and what a timer does when it fires touches none of them.
Whether a step succeeds or fails, the marks of the contexts and the timers that can fire correspond,
and every timer is set to update the buffer that is its context or to open the panel.
-/

namespace MessageLens.Session
set_option autoImplicit false

open Operation

variable {τ α : Type} {s s' : Session τ} {id : Handle} {t : Timer τ (Job Handle SessionTask)}
  {batch : List (Timer τ (Job Handle SessionTask))}

/-! ## Operations that set no timer -/

/-- The timers, and whether there is a buffer under the name that the panel's timer has. -/
def standing (s : Session τ) : Debouncer τ Handle SessionTask × Bool :=
  (s.timers, s.host.isValid hoverContext)

theorem standing_of_editor {x : SessionOperation τ α} (keeps : Keeps editorSide x) :
    Keeps standing x :=
  keeps.comp fun side => (side.timers, side.host.isValid hoverContext)

theorem standing_of_previews {x : SessionOperation τ α} (keeps : Keeps previewSide x) :
    Keeps standing x :=
  keeps.comp fun side => (side.timers, side.buffers.contains hoverContext)

theorem updateBuffer_keeps_standing (id : Handle) :
    Keeps standing (updateBuffer id : SessionOperation τ Unit) := by
  intro s
  obtain ⟨s', run, drawn⟩ := updateBuffer_ok id s
  have timers : s'.timers = s.timers := by rw [drawn.outside]
  have valid : s'.host.isValid hoverContext = s.host.isValid hoverContext := by
    rw [Host.isValid, Host.isValid, Table.contains, Table.contains, drawn.buffers,
      Option.isSome_map]
  rw [leaves, run, standing, standing, timers, valid]

theorem standing_undisturbed : Undisturbed (standing (τ := τ)) :=
  ⟨⟨standing_of_editor⟩, fun f => Keeps.change (fun _ _ => rfl) f, updateBuffer_keeps_standing⟩

theorem enable_keeps_standing : Keeps standing (enable : SessionOperation τ Unit) :=
  Keeps.bind (Keeps.modify fun _ => rfl) fun _ => standing_undisturbed.updateAll

theorem fire_keeps_standing (task : SessionTask) :
    Keeps standing (fire task : SessionOperation τ Unit) := by
  refine Keeps.get.bind fun s => ?_
  cases task with
  | update id => exact Keeps.ite (updateBuffer_keeps_standing id) (Keeps.pure ())
  | hover id =>
    exact Keeps.ite (standing_of_previews (showHover_keeps_previews id)).discard (Keeps.pure ())

theorem changeBuffer_keeps_standing (id : Handle) (f : Buffer → Buffer) :
    Keeps standing (changeBuffer id f : SessionOperation τ Unit) := by
  intro s
  rw [leaves]
  cases run : changeBuffer id f s with
  | ok u s' =>
    obtain ⟨b, isOpen, rfl⟩ := changeBuffer_ok run
    exact Prod.ext rfl (Table.contains_set_held isOpen)
  | error e s' => rw [changeBuffer_error run]

theorem openBuffer_keeps_standing (path : String) (text : Option String) :
    Keeps standing (openBuffer path text : SessionOperation τ Handle) := by
  intro s
  rw [leaves]
  cases run : openBuffer path text s with
  | ok id s' =>
    obtain ⟨text, -, rfl⟩ := openBuffer_ok run
    have other : hoverContext ≠ .number (s.host.opened + 1) := by simp [hoverContext]
    have valid : (s.host.openBuffer path text).2.buffers.contains hoverContext =
        s.host.buffers.contains hoverContext := by
      rw [Table.contains, Table.contains]
      exact congrArg Option.isSome (Table.get?_set_ne _ other _)
    exact Prod.ext rfl valid
  | error e s' => rw [openBuffer_error run]

/-! ## What a step does to the timers -/

/-- The timers after a step, one that runs what is due apart. -/
inductive Moved [Instant τ] (step : SessionStep) (s s' : Session τ) : Prop where
  | kept (left : s'.timers = s.timers)
  | cancelled (c : Handle) (reason : c = hoverContext ∨ step = .textChanged c ∨ c ∉ s'.attached)
      (left : s'.timers = s.timers.cancel c)
  | emptied (reason : s'.enabled = false ∨ s'.attached = []) (left : s'.timers = s.timers.cancelAll)
  | triggered (c : Handle) (delay : Int) (task : SessionTask) (purpose : Purpose ⟨some c, task⟩)
      (reason : c = hoverContext ∨ step = .textChanged c)
      (left : s'.timers = (s.timers.trigger c delay task).2)
  | advanced (ms : Int) (left : s'.timers = s.timers.advance ms)

/-- What the reasons are about besides the timers. -/
def setting (s : Session τ) : (Debouncer τ Handle SessionTask × Bool) × Bool × List Handle :=
  (standing s, s.enabled, s.attached)

theorem clearBuffer_keeps_setting (id : Handle) :
    Keeps setting (clearBuffer id : SessionOperation τ Unit) := by
  refine Keeps.bind (Keeps.modify fun _ => rfl) fun _ => Keeps.get.bind fun s => fun t => ?_
  have valid : (t.host.clearLayer id s.layer).isValid hoverContext =
      t.host.isValid hoverContext := by
    cases isOpen : t.host.buffers.get? id with
    | none => rw [Host.clearLayer_closed isOpen]
    | some b =>
      rw [Host.clearLayer_eq isOpen]
      exact Table.contains_set_held isOpen
  exact Prod.ext (Prod.ext rfl valid) rfl

variable [Instant τ] {step : SessionStep}

/-- The step moves the timers in one of these ways and opens no buffer under the name that the
panel's timer has. -/
def Moves (step : SessionStep) (x : SessionOperation τ α) : Prop :=
  ∀ s, s.host.isValid hoverContext = false →
    Moved step s (leaves x s) ∧ (leaves x s).host.isValid hoverContext = false

namespace Moves

theorem of_keeps {x : SessionOperation τ α} (keeps : Keeps standing x) : Moves step x := by
  intro s closed
  have timers : (leaves x s).timers = s.timers := congrArg Prod.fst (keeps s)
  have valid : (leaves x s).host.isValid hoverContext = s.host.isValid hoverContext :=
    congrArg Prod.snd (keeps s)
  exact ⟨.kept timers, valid.trans closed⟩

/-- What follows need only leave the timers and the reasons alone. -/
theorem andThen {β : Type} {x : SessionOperation τ α} {k : α → SessionOperation τ β}
    (moves : Moves step x) (keeps : ∀ a, Keeps setting (k a)) : Moves step (x >>= k) := by
  intro s closed
  obtain ⟨moved, still⟩ := moves s closed
  have same : setting (leaves (x >>= k) s) = setting (leaves x s) := by
    rw [leaves_bind, leaves]
    cases x s with
    | ok a t => exact keeps a t
    | error e t => rfl
  generalize leaves (x >>= k) s = s' at same
  obtain ⟨both, enabled, attached⟩ := Prod.mk.inj same |>.imp_right Prod.mk.inj
  obtain ⟨timers, valid⟩ := Prod.mk.inj both
  refine ⟨?_, valid.trans still⟩
  cases moved with
  | kept left => exact .kept (timers.trans left)
  | cancelled c reason left => exact .cancelled c (attached ▸ reason) (timers.trans left)
  | emptied reason left =>
    exact .emptied (reason.imp enabled.trans attached.trans) (timers.trans left)
  | triggered c delay task purpose reason left =>
    exact .triggered c delay task purpose reason (timers.trans left)
  | advanced ms left => exact .advanced ms (timers.trans left)

theorem answer {x : SessionOperation τ α} (moves : Moves step x) (f : α → SessionAnswer) :
    Moves step (x >>= fun a => pure (f a) : SessionOperation τ SessionAnswer) :=
  moves.andThen fun _ => Keeps.pure _

theorem get_bind {k : Session τ → SessionOperation τ α} (moves : ∀ s, Moves step (k s)) :
    Moves step (get >>= k) := fun s => moves s s

theorem ite {p : Prop} [Decidable p] {x y : SessionOperation τ α} (hx : Moves step x)
    (hy : Moves step y) : Moves step (if p then x else y) := by
  by_cases h : p
  · rw [if_pos h]; exact hx
  · rw [if_neg h]; exact hy

theorem pure (a : α) : Moves step (Pure.pure a : SessionOperation τ α) := of_keeps (Keeps.pure a)

theorem detach (id : Handle) : Moves step (Session.detach id : SessionOperation τ Unit) := by
  intro s closed
  have left : id ∉ s.attached.filter (· ≠ id) := by simp
  exact ⟨.cancelled id (.inr (.inr left)) rfl, closed⟩

theorem disable : Moves step (Session.disable : SessionOperation τ Unit) := by
  intro s closed
  -- what follows the cancelling only empties buffers
  have kept := clearAll_keeps clearBuffer_keeps_setting
    { s with enabled := false, timers := s.timers.cancelAll }
  have valid : (leaves Session.disable s).host.isValid hoverContext =
      s.host.isValid hoverContext := congrArg (·.1.2) kept
  exact ⟨.emptied (.inl (congrArg (·.2.1) kept)) (congrArg (·.1.1) kept), valid.trans closed⟩

theorem toggle : Moves step (Session.toggle : SessionOperation τ Bool) := by
  have ending : ∀ message, Keeps setting (do
      log .info message
      return (← get).enabled : SessionOperation τ Bool) := fun _ =>
    Keeps.bind (Keeps.modify fun _ => rfl) fun _ => Keeps.get.bind fun _ => Keeps.pure _
  exact get_bind fun _ => ite (disable.andThen fun _ => ending _)
    ((of_keeps enable_keeps_standing).andThen fun _ => ending _)

theorem closeHover : Moves step (Session.closeHover : SessionOperation τ Unit) :=
  fun _ closed => ⟨.cancelled hoverContext (.inl rfl) rfl, closed⟩

theorem close : Moves step (Session.close : SessionOperation τ Unit) :=
  fun _ closed => ⟨.emptied (.inr rfl) rfl, closed⟩

theorem closeBuffer (id : Handle) :
    Moves step (hostPart.change (·.closeBuffer id) : SessionOperation τ Unit) := by
  intro s closed
  refine ⟨.kept rfl, ?_⟩
  show (s.host.buffers.erase id).contains hoverContext = false
  rw [Table.contains, Table.get?_erase]
  by_cases here : hoverContext = id
  · rw [if_pos here, Option.isSome_none]
  · rw [if_neg here]
    exact closed

theorem advance (ms : Int) :
    Moves step (timersPart.change (·.advance ms) : SessionOperation τ Unit) :=
  fun _ closed => ⟨.advanced ms rfl, closed⟩

theorem startTimer {c : Handle} {delay : Int} {task : SessionTask}
    (purpose : Purpose ⟨some c, task⟩) (reason : c = hoverContext ∨ step = .textChanged c) :
    Moves step (Session.startTimer c delay task : SessionOperation τ Unit) := by
  intro s closed
  rw [leaves]
  cases run : Session.startTimer c delay task s with
  | ok u s' =>
    obtain rfl := startTimer_ok run
    exact ⟨.triggered c delay task purpose reason rfl, closed⟩
  | error e s' =>
    simp only [Session.startTimer, bind_error, read_error, read_ok, exists_both_eq, false_or,
      ite_error, change_error, change_ok, exists_unit_eq, throw_error, and_false] at run
    obtain ⟨-, -, rfl⟩ := run
    exact ⟨.cancelled c (reason.imp_right .inl) rfl, closed⟩

theorem onTextChanged (id : Handle) :
    Moves (.textChanged id) (Session.onTextChanged id : SessionOperation τ Unit) :=
  get_bind fun _ => ite (startTimer (.inl ⟨id, rfl⟩) (.inr rfl)) (pure ())

theorem onCursorHold (id : Handle) :
    Moves step (Session.onCursorHold id : SessionOperation τ Unit) :=
  get_bind fun _ => ite (startTimer (.inr ⟨id, rfl⟩) (.inl rfl)) (pure ())

end Moves

/-- Every step but one that runs what is due moves the timers in one of these ways. -/
theorem perform_moves (step : SessionStep) (other : step ≠ .runDue) :
    Moves step (perform step : SessionOperation τ SessionAnswer) := by
  cases step with
  | openBuffer path text => exact (Moves.of_keeps (openBuffer_keeps_standing path text)).answer _
  | closeBuffer id => exact (Moves.closeBuffer id).answer _
  | setText id text => exact (Moves.of_keeps (changeBuffer_keeps_standing id _)).answer _
  | setCursor id line column => exact (Moves.of_keeps (changeBuffer_keeps_standing id _)).answer _
  | attach id =>
    exact (Moves.of_keeps (standing_undisturbed.attach id (Keeps.modify fun _ => rfl))).answer _
  | detach id => exact (Moves.detach id).answer _
  | textChanged id => exact (Moves.onTextChanged id).answer _
  | showHover id =>
    exact (Moves.of_keeps (standing_of_previews (showHover_keeps_previews id))).answer _
  | closeHover => exact Moves.closeHover.answer _
  | cursorHold id => exact (Moves.onCursorHold id).answer _
  | cursorMoved id => exact Moves.closeHover.answer _
  | updateBuffer id => exact (Moves.of_keeps (updateBuffer_keeps_standing id)).answer _
  | updateAll => exact (Moves.of_keeps standing_undisturbed.updateAll).answer _
  | enable => exact (Moves.of_keeps enable_keeps_standing).answer _
  | disable => exact Moves.disable.answer _
  | toggle => exact Moves.toggle.answer _
  | refresh => exact (Moves.of_keeps standing_undisturbed.refresh).answer _
  | selectLocale locale =>
    exact (Moves.of_keeps (standing_undisturbed.selectLocale locale)).answer _
  | loadAllLocales =>
    exact (Moves.of_keeps (standing_of_editor loadAllLocales_keeps_editor)).answer _
  | messageFileChanged locale =>
    exact (Moves.of_keeps (standing_undisturbed.onMessageFileChanged locale)).answer _
  | settingsChanged => exact (Moves.of_keeps standing_undisturbed.onSettingsChanged).answer _
  | close => exact Moves.close.answer _
  | advance ms => exact (Moves.advance ms).answer _
  | runDue => exact absurd rfl other
  | poll => exact (Moves.of_keeps standing_undisturbed.poll).answer _
  | change c =>
    exact (Moves.of_keeps (standing_of_previews (changeFiles_keeps_previews c))).answer _

/-! ## Timers that correspond to marks -/

/-- The timers of a session and the marks of the contexts correspond, and the timers are set for
what they should be; `batch` are timers that have been taken off the pending list to be fired. -/
structure Ticking (batch : List (Timer τ (Job Handle SessionTask))) (s : Session τ) : Prop where
  sound : s.timers.Sound batch
  tight : s.timers.Tight batch
  purpose : ∀ t ∈ s.timers.scheduler.pending ++ batch, Purpose t.task
  closed : s.host.isValid hoverContext = false

omit [Instant τ] in
theorem Unused.ticking (unused : Unused s) : Ticking [] s := by
  refine ⟨?_, ?_, fun t mem => ?_, ?_⟩
  · rw [unused.timers]; exact .start _
  · rw [unused.timers]; exact .start _
  · rw [unused.timers] at mem
    cases mem
  · refine Bool.eq_false_iff.2 fun valid => ?_
    obtain ⟨b, isOpen⟩ := Table.contains_iff.1 valid
    exact (unused.opened _ b isOpen).ne_hover rfl

omit [Instant τ] in
theorem IsNew.ticking (new : IsNew s) : Ticking [] s := new.unused.ticking

omit [Instant τ] in
theorem Ticking.not_hover (ticking : Ticking batch s) (valid : s.host.isValid id = true) :
    id ≠ hoverContext := by
  rintro rfl
  rw [ticking.closed] at valid
  cases valid

theorem Ticking.moved (ticking : Ticking [] s) (moved : Moved step s s')
    (closed : s'.host.isValid hoverContext = false) : Ticking [] s' := by
  obtain ⟨sound, tight, purpose, -⟩ := ticking
  rw [List.append_nil] at purpose
  cases moved with
  | kept left =>
    refine ⟨left ▸ sound, left ▸ tight, fun t mem => ?_, closed⟩
    rw [left, List.append_nil] at mem
    exact purpose t mem
  | cancelled c reason left =>
    refine ⟨left ▸ sound.cancel c, left ▸ tight.cancel c, fun t mem => ?_, closed⟩
    rw [left, List.append_nil] at mem
    exact purpose t (Debouncer.mem_of_cancel mem)
  | emptied reason left =>
    refine ⟨left ▸ sound.cancelAll, left ▸ tight.cancelAll, fun t mem => ?_, closed⟩
    rw [left, List.append_nil] at mem
    exact purpose t (Debouncer.mem_of_cancelAll mem)
  | triggered c delay task fit reason left =>
    refine ⟨left ▸ sound.trigger c delay task, left ▸ tight.trigger sound c delay task,
      fun t mem => ?_, closed⟩
    rw [left, List.append_nil] at mem
    obtain old | new := Debouncer.mem_of_trigger mem
    · exact purpose t old
    · exact new ▸ fit
  | advanced ms left =>
    refine ⟨left ▸ sound.advance ms, left ▸ tight.advance ms, fun t mem => ?_, closed⟩
    rw [left, List.append_nil] at mem
    exact purpose t mem

omit [Instant τ] in
theorem Ticking.of_standing (ticking : Ticking batch s) (same : standing s' = standing s) :
    Ticking batch s' := by
  obtain ⟨timers, valid⟩ := Prod.mk.inj same
  exact ⟨timers ▸ ticking.sound, timers ▸ ticking.tight, timers ▸ ticking.purpose,
    valid.trans ticking.closed⟩

/-- The state after the due timers have been taken off the pending list. -/
def taken (s : Session τ) : Session τ :=
  { s with timers := { s.timers with scheduler := s.timers.scheduler.takeDue.2 } }

theorem Ticking.taken (ticking : Ticking [] s) :
    Ticking s.timers.scheduler.takeDue.1 s.taken := by
  have sound := ticking.sound.takeDue
  have tight := ticking.tight.takeDue
  rw [List.append_nil] at sound tight
  refine ⟨sound, tight, fun t mem => ?_, ticking.closed⟩
  exact ticking.purpose t (List.mem_append_left _ (Scheduler.mem_takeDue.1 mem))

/-- The state in which a timer does what it is set for. -/
def released (s : Session τ) (t : Timer τ (Job Handle SessionTask)) : Session τ :=
  { s with
    timers := Debouncer.release
      { s.timers with scheduler := s.timers.scheduler.markFired t.id } t }

omit [Instant τ] in
theorem Ticking.released (ticking : Ticking (t :: batch) s) : Ticking batch (s.released t) := by
  refine ⟨ticking.sound.fire, ticking.tight.fire, fun t' mem => ticking.purpose t' ?_,
    ticking.closed⟩
  rw [Session.released, Debouncer.release_scheduler] at mem
  exact List.mem_append.2 ((List.mem_append.1 mem).imp_right (List.mem_cons_of_mem t))

/-- What holds when the due timers have been taken, and is kept when one of them is passed over or
does what it is set for, holds in the end. -/
theorem runDue_preserves {I : List (Timer τ (Job Handle SessionTask)) → Session τ → Prop} {n : Nat}
    (skip : ∀ t rest r, I (t :: rest) r → r.timers.scheduler.isActive t.id = false → I rest r)
    (fires : ∀ t rest r r', I (t :: rest) r → r.timers.scheduler.isActive t.id = true →
      fire t.task.task (r.released t) = .ok () r' → I rest r')
    (start : I s.timers.scheduler.takeDue.1 s.taken) (run : runDue s = .ok n s') : I [] s' := by
  simp only [runDue, Debouncer.runDue, Scheduler.runDue, bind_ok, update_ok, exists_both_eq] at run
  refine Scheduler.runBatch_preserves skip (fun t rest r r' before active fired => ?_) start run
  simp only [bind_ok, change_ok, exists_unit_eq] at fired
  exact fires t rest r r' before active fired

theorem runDue_ok (s : Session τ) : ∃ n s', runDue s = .ok n s' := by
  cases run : runDue s with
  | ok n s' => exact ⟨n, s', rfl⟩
  | error e s' => exact absurd run (runDue_avoids s s')

/-- What is due in a state `s` is being done, and `rest` is left of it. -/
structure Draining (s : Session τ) (rest : List (Timer τ (Job Handle SessionTask)))
    (r : Session τ) : Prop where
  ticking : Ticking rest r
  active : ∀ t ∈ rest, r.timers.scheduler.isActive t.id = true
  pending : r.timers.scheduler.pending = s.taken.timers.scheduler.pending

namespace Draining

variable {r r' : Session τ} {rest : List (Timer τ (Job Handle SessionTask))}

theorem start (ticking : Ticking [] s) : Draining s s.timers.scheduler.takeDue.1 s.taken := by
  refine ⟨ticking.taken, fun t mem => ?_, rfl⟩
  exact ticking.tight.live t (Scheduler.mem_takeDue.1 (List.mem_append_right _ mem))

/-- No timer of a batch is cancelled before its turn comes. -/
theorem not_skipped (draining : Draining s (t :: rest) r)
    (inactive : r.timers.scheduler.isActive t.id = false) : False := by
  have active := draining.active t List.mem_cons_self
  rw [inactive] at active
  cases active

theorem fire (draining : Draining s (t :: rest) r)
    (fired : Session.fire t.task.task (r.released t) = .ok () r') : Draining s rest r' := by
  have same := (fire_keeps_standing t.task.task).ok fired
  have timers : r'.timers = (r.released t).timers := congrArg Prod.fst same
  refine ⟨draining.ticking.released.of_standing same, fun t' mem => ?_, ?_⟩
  · have distinct := (List.pairwise_append.1 draining.ticking.tight.distinct).2.1
    have differ : t'.id ≠ t.id := ((List.pairwise_cons.1 distinct).1 t' mem).symm
    rw [timers, Session.released, Debouncer.release_scheduler]
    exact Scheduler.isActive_markFired.2 ⟨differ, draining.active t' (List.mem_cons_of_mem t mem)⟩
  · rw [timers, Session.released, Debouncer.release_scheduler]
    exact draining.pending

/-- A run of what is due takes the timers that are due. -/
theorem outstanding (draining : Draining s [] r) (ticking : Ticking [] s) (c : Handle) :
    r.timers.outstanding c =
      (s.timers.outstanding c).filter fun t => !s.timers.scheduler.isDue t := by
  rw [draining.ticking.tight.outstanding_eq, draining.pending, ticking.tight.outstanding_eq,
    List.filter_filter]
  show (s.timers.scheduler.pending.filter fun t => !s.timers.scheduler.isDue t).filter _ = _
  rw [List.filter_filter]
  simp only [Bool.and_comm]

end Draining

theorem runDue_draining {n : Nat} (ticking : Ticking [] s) (run : runDue s = .ok n s') :
    Draining s [] s' :=
  runDue_preserves (fun _ _ _ before inactive => (before.not_skipped inactive).elim)
    (fun _ _ _ _ before _ fired => before.fire fired) (.start ticking) run

theorem Ticking.runDue {n : Nat} (ticking : Ticking [] s) (run : runDue s = .ok n s') :
    Ticking [] s' := (runDue_draining ticking run).ticking

theorem Ticking.perform (ticking : Ticking [] s) (step : SessionStep) :
    Ticking [] (leaves (perform step) s) := by
  by_cases due : step = .runDue
  · obtain ⟨n, s', run⟩ := runDue_ok s
    have performed : Session.perform .runDue s = .ok (.count n) s' := bind_ok.2 ⟨n, s', run, rfl⟩
    rw [due, leaves_ok performed]
    exact ticking.runDue run
  · obtain ⟨moved, closed⟩ := perform_moves step due s ticking.closed
    exact ticking.moved moved closed

/-- In every state of a run the timers correspond to the marks. -/
theorem Ticking.runSteps (ticking : Ticking [] s) (steps : List SessionStep) :
    Ticking [] (runSteps s steps) := by
  induction steps generalizing s with
  | nil => exact ticking
  | cons step rest ih =>
    rw [runSteps_cons]
    exact ih (ticking.perform step)

/-- A step other than an edit of a buffer takes the timer of the buffer only if the buffer is not
previewed any more. -/
theorem Moved.outstanding (moved : Moved step s s') (ticking : Ticking [] s)
    (other : step ≠ .textChanged id) (buffer : id ≠ hoverContext) (enabled : s'.enabled = true)
    (attached : id ∈ s'.attached) : s'.timers.outstanding id = s.timers.outstanding id := by
  have differs : ∀ {c : Handle}, c = hoverContext ∨ step = .textChanged c → id ≠ c := by
    rintro c (rfl | rfl) rfl
    · exact buffer rfl
    · exact other rfl
  cases moved with
  | kept left => rw [left]
  | cancelled c reason left =>
    have apart : id ≠ c := by
      obtain hover | edit | gone := reason
      · exact differs (.inl hover)
      · exact differs (.inr edit)
      · rintro rfl
        exact gone attached
    rw [left, ticking.tight.outstanding_cancel ticking.sound apart]
  | emptied reason left =>
    obtain off | none := reason
    · rw [off] at enabled
      cases enabled
    · rw [none] at attached
      cases attached
  | triggered c delay task purpose reason left =>
    rw [left, ticking.tight.outstanding_trigger ticking.sound (differs reason)]
  | advanced ms left =>
    rw [left]
    rfl

end MessageLens.Session
