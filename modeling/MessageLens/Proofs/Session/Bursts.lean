import MessageLens.Proofs.Session.Timers

/-!
# A burst of edits is drawn once

An edit of a buffer sets the timer of the buffer anew, so that only the last edit of a burst has
one. As long as the buffer goes on being previewed, the timer is taken by nothing but the first run
of what is due at its time or later. That run draws once in the buffer, from the text that the
buffer has then, and no run before or after it draws in the buffer at all.
-/

namespace MessageLens.Session
set_option autoImplicit false

open Operation

variable {τ : Type} {s s' r r' : Session τ} {id : Handle} {b : Buffer} {k n : Nat}
  {t : Timer τ (Job Handle SessionTask)} {rest : List (Timer τ (Job Handle SessionTask))}

/-! ## What timers do to a buffer -/

/-- How often the session has drawn in a buffer or emptied it. -/
def renders (s : Session τ) (id : Handle) : Nat := s.events.count (.cleared id)

/-- What is drawn in a buffer, how often, and what would be drawn in buffers. -/
structure BufferSide where
  enabled : Bool
  content : Option Buffer
  renders : Nat
  redrawn : Buffer → Buffer

/-- The side of a single buffer. -/
def bufferSide (id : Handle) (s : Session τ) : BufferSide :=
  ⟨s.enabled, s.host.buffers.get? id, s.renders id, s.redrawn⟩

theorem emit_keeps_buffer {e : SessionEvent} (other : e ≠ .cleared id) :
    Keeps (bufferSide id) (emit e : SessionOperation τ Unit) := by
  refine Keeps.modify fun s => ?_
  have same : (e :: s.events).count (.cleared id) = s.events.count (.cleared id) :=
    List.count_cons_of_ne other
  rw [bufferSide, renders, same]
  rfl

theorem showHover_keeps_buffer (i : Handle) :
    Keeps (bufferSide id) (showHover i : SessionOperation τ Bool) := by
  have closes : Keeps (bufferSide id) (closePanel : SessionOperation τ Unit) :=
    (emit_keeps_buffer (e := .panelClosed) nofun).bind fun _ => fun _ => rfl
  exact showHover_keeps closes (emit_keeps_buffer nofun) fun _ _ => rfl

/-- Drawing in a buffer is of no consequence for the others. -/
theorem updateBuffer_keeps_buffer {i : Handle} (other : i ≠ id) :
    Keeps (bufferSide id) (updateBuffer i : SessionOperation τ Unit) := by
  intro s
  cases drawing : s.enabled && s.host.isValid i with
  | false => rw [leaves_ok (updateBuffer_idle drawing)]
  | true =>
    rw [Bool.and_eq_true] at drawing
    obtain ⟨b, isOpen⟩ := Table.contains_iff.1 drawing.2
    rw [leaves_ok (updateBuffer_open drawing.1 isOpen), bufferSide, bufferSide, renders, renders,
      List.count_cons_of_ne (by simpa using other), Table.get?_set_ne _ (Ne.symm other)]
    rfl

theorem fire_keeps_buffer {task : SessionTask} (other : task ≠ .update id) :
    Keeps (bufferSide id) (fire task : SessionOperation τ Unit) := by
  refine Keeps.get.bind fun s => ?_
  cases task with
  | update i =>
    have apart : i ≠ id := fun same => other (congrArg _ same)
    exact Keeps.ite (updateBuffer_keeps_buffer apart) (Keeps.pure ())
  | hover i => exact Keeps.ite (showHover_keeps_buffer i).discard (Keeps.pure ())

/-- The timer of an open buffer draws once. -/
theorem fire_update_buffer (enabled : s.enabled = true) (isOpen : s.host.buffers.get? id = some b)
    (fired : fire (.update id) s = .ok () s') :
    bufferSide id s' = ⟨true, some (s.redrawn b), s.renders id + 1, s.redrawn⟩ := by
  have valid : s.host.isValid id = true := Table.contains_iff.2 ⟨b, isOpen⟩
  have drawing : (s.enabled && s.host.isValid id) = true := by rw [enabled, valid]; rfl
  simp only [fire, bind_ok, get_ok, exists_both_eq] at fired
  rw [if_pos drawing, updateBuffer_open enabled isOpen] at fired
  cases fired
  rw [bufferSide, renders, renders, List.count_cons_self, Table.get?_set_self]
  exact congrArg (BufferSide.mk · _ _ _) enabled

/-! ## Running what is due -/

section Clock

variable [Instant τ]

/-- What is due in a state `s` is being done: `rest` is left of it, and the timer of the buffer,
which held `b`, has been come to `k` times. -/
structure Halfway (id : Handle) (s : Session τ) (b : Buffer) (k : Nat)
    (rest : List (Timer τ (Job Handle SessionTask))) (r : Session τ) : Prop where
  ticking : Ticking rest r
  active : ∀ t ∈ rest, r.timers.scheduler.isActive t.id = true
  pending : r.timers.scheduler.pending = s.taken.timers.scheduler.pending
  seen : bufferSide id r =
    ⟨true, some (if k = 0 then b else s.redrawn b), s.renders id + k, s.redrawn⟩

theorem Halfway.start (ticking : Ticking [] s) (enabled : s.enabled = true)
    (isOpen : s.host.buffers.get? id = some b) :
    Halfway id s b 0 s.timers.scheduler.takeDue.1 s.taken := by
  obtain ⟨ticking, active, pending⟩ := Draining.start ticking
  refine ⟨ticking, active, pending, ?_⟩
  show bufferSide id s = _
  rw [bufferSide, enabled, isOpen]
  rfl

theorem Halfway.fire (half : Halfway id s b k (t :: rest) r) (buffer : id ≠ hoverContext)
    (fired : fire t.task.task (r.released t) = .ok () r') :
    Halfway id s b (k + if t.task.context = some id then 1 else 0) rest r' := by
  have before : bufferSide id (r.released t) = bufferSide id r := rfl
  have draining : Draining s (t :: rest) r := ⟨half.ticking, half.active, half.pending⟩
  obtain ⟨ticking, active, pending⟩ := draining.fire fired
  refine ⟨ticking, active, pending, ?_⟩
  have purpose := half.ticking.purpose t (by simp)
  rw [half.seen] at before
  obtain ⟨enabled, isOpen, renders, redrawn⟩ := BufferSide.mk.inj before
  by_cases own : t.task = ⟨some id, .update id⟩
  · rw [own] at fired
    rw [own, if_pos rfl, if_neg (Nat.succ_ne_zero k), fire_update_buffer enabled isOpen fired,
      renders, redrawn]
    have drawn : s.redrawn (if k = 0 then b else s.redrawn b) = s.redrawn b := by
      split
      · rfl
      · exact redrawn_redrawn s b
    rw [drawn]
    rfl
  · have others : t.task.task ≠ .update id ∧ t.task.context ≠ some id := by
      obtain ⟨i, task⟩ | ⟨i, task⟩ := purpose
      · have apart : i ≠ id := fun same => own (same ▸ task)
        rw [task]
        exact ⟨fun same => apart (SessionTask.update.inj same),
          fun same => apart (Option.some.inj same)⟩
      · rw [task]
        exact ⟨by simp, fun same => buffer (Option.some.inj same).symm⟩
    rw [(fire_keeps_buffer others.1).ok fired, before, if_neg others.2, Nat.add_zero]

/-- A run of what is due takes the timers of a buffer that are due, and draws in the buffer as often
as it has such a timer. -/
theorem runDue_draws (ticking : Ticking [] s) (enabled : s.enabled = true)
    (isOpen : s.host.buffers.get? id = some b) (run : runDue s = .ok n s')
    (due : ((s.timers.outstanding id).filter s.timers.scheduler.isDue).length = k) :
    s'.timers.outstanding id =
      (s.timers.outstanding id).filter (fun t => !s.timers.scheduler.isDue t) ∧
    bufferSide id s' =
      ⟨true, some (if k = 0 then b else s.redrawn b), s.renders id + k, s.redrawn⟩ := by
  have buffer : id ≠ hoverContext := ticking.not_hover (Table.contains_iff.2 ⟨b, isOpen⟩)
  obtain ⟨done, half, all⟩ := runDue_preserves
    (I := fun rest r => ∃ done, Halfway id s b done rest r ∧
      done + rest.countP (fun t => t.task.context = some id) = k)
    (fun t rest r before inactive => by
      obtain ⟨done, half, -⟩ := before
      have active := half.active t List.mem_cons_self
      rw [inactive] at active
      cases active)
    (fun t rest r r' before _ fired => by
      obtain ⟨done, half, left⟩ := before
      refine ⟨_, half.fire buffer fired, ?_⟩
      rw [← left, List.countP_cons]
      simp only [decide_eq_true_eq]
      omega)
    ⟨0, .start ticking enabled isOpen, by rw [Nat.zero_add, ticking.tight.countP_takeDue, due]⟩ run
  obtain rfl : done = k := by simpa using all
  exact ⟨(runDue_draining ticking run).outstanding ticking id, half.seen⟩

/-! ## Bursts -/

/-- A buffer is previewed. -/
structure Attended (id : Handle) (s : Session τ) : Prop where
  enabled : s.enabled = true
  attached : id ∈ s.attached
  valid : s.host.isValid id = true

/-- A buffer is previewed in every state of a run. -/
def StaysAttended (id : Handle) (s : Session τ) (steps : List SessionStep) : Prop :=
  ∀ first rest, steps = first ++ rest → Attended id (runSteps s first)

/-- When an edit that is noted now is to be shown, if no other follows before. -/
def showTime (s : Session τ) : τ :=
  Instant.shift s.timers.scheduler.now (max s.options.debounceMs 0)

/-- That moment has come. -/
def Reached (moment : τ) (s : Session τ) : Prop :=
  Instant.notAfter moment s.timers.scheduler.now = true

/-- What was due at that moment or later has been run in the course of these steps. -/
def RunSince (moment : τ) (s : Session τ) (steps : List SessionStep) : Prop :=
  ∃ first rest, steps = first ++ .runDue :: rest ∧ Reached moment (runSteps s first)

variable {moment : τ} {steps during before : List SessionStep} {step : SessionStep}
  {answer : SessionAnswer} {s₀ s₁ : Session τ}

theorem staysAttended_nil : StaysAttended id s [] ↔ Attended id s := by
  constructor
  · exact fun stays => stays [] [] rfl
  · intro now first rest split
    obtain ⟨rfl, -⟩ := List.append_eq_nil_iff.1 split.symm
    exact now

theorem staysAttended_cons : StaysAttended id s (step :: steps) ↔
    Attended id s ∧ StaysAttended id (leaves (perform step) s) steps := by
  constructor
  · intro stays
    refine ⟨stays [] (step :: steps) rfl, ?_⟩
    rintro first rest rfl
    have later := stays (step :: first) rest rfl
    rwa [runSteps_cons] at later
  · rintro ⟨now, later⟩ first rest split
    cases first with
    | nil => exact now
    | cons head first =>
      obtain ⟨rfl, rfl⟩ := List.cons.inj split
      rw [runSteps_cons]
      exact later first rest rfl

theorem StaysAttended.now (stays : StaysAttended id s steps) : Attended id s := stays [] steps rfl

theorem runSince_nil : ¬ RunSince moment s [] := by
  rintro ⟨first, rest, split, -⟩
  simp at split

theorem runSince_cons : RunSince moment s (step :: steps) ↔
    step = .runDue ∧ Reached moment s ∨ RunSince moment (leaves (perform step) s) steps := by
  constructor
  · rintro ⟨first, rest, split, reached⟩
    cases first with
    | nil =>
      obtain ⟨rfl, -⟩ := List.cons.inj split
      exact .inl ⟨rfl, reached⟩
    | cons head first =>
      obtain ⟨rfl, rfl⟩ := List.cons.inj split
      rw [runSteps_cons] at reached
      exact .inr ⟨first, rest, rfl, reached⟩
  · rintro (⟨rfl, reached⟩ | ⟨first, rest, rfl, reached⟩)
    · exact ⟨[], steps, rfl, reached⟩
    · refine ⟨step :: first, rest, rfl, ?_⟩
      rw [runSteps_cons]
      exact reached

theorem outstanding_runDue (ticking : Ticking [] s) (attended : Attended id s) :
    (leaves (perform .runDue) s).timers.outstanding id =
      (s.timers.outstanding id).filter fun t => !s.timers.scheduler.isDue t := by
  obtain ⟨b, isOpen⟩ := Table.contains_iff.1 attended.valid
  obtain ⟨n, s', run⟩ := runDue_ok s
  have performed : perform .runDue s = .ok (.count n) s' := bind_ok.2 ⟨n, s', run, rfl⟩
  rw [leaves_ok performed]
  exact (runDue_draws ticking attended.enabled isOpen run rfl).1

/-- While no edit of a previewed buffer follows, its timer is taken by the first run of what is due
at its time, and by nothing else. -/
theorem outstanding_during (ticking : Ticking [] s)
    (timed : ∀ t ∈ s.timers.outstanding id, t.due = moment) (last : .textChanged id ∉ during)
    (stays : StaysAttended id s during) :
    (RunSince moment s during → (runSteps s during).timers.outstanding id = []) ∧
    (¬ RunSince moment s during →
      (runSteps s during).timers.outstanding id = s.timers.outstanding id) := by
  induction during generalizing s with
  | nil => exact ⟨fun since => absurd since runSince_nil, fun _ => rfl⟩
  | cons step rest ih =>
    rw [List.mem_cons, not_or] at last
    obtain ⟨now, later⟩ := staysAttended_cons.1 stays
    rw [runSteps_cons, runSince_cons]
    by_cases due : step = .runDue
    · subst due
      have left := outstanding_runDue ticking now
      by_cases reached : Reached moment s
      · -- the timer has been taken now
        have gone : (leaves (perform .runDue) s).timers.outstanding id = [] := by
          rw [left, List.filter_eq_nil_iff]
          intro t mem
          rw [Scheduler.isDue, timed t mem, reached]
          exact Bool.false_ne_true
        have idle := ih (ticking.perform _) (by rw [gone]; exact nofun) last.2 later
        rw [gone] at idle
        refine ⟨fun _ => ?_, fun not => absurd (.inl ⟨rfl, reached⟩) not⟩
        exact (Classical.em _).elim idle.1 idle.2
      · have kept : (leaves (perform .runDue) s).timers.outstanding id =
            s.timers.outstanding id := by
          rw [left, List.filter_eq_self]
          intro t mem
          rw [Scheduler.isDue, timed t mem, Bool.not_eq_true']
          exact Bool.eq_false_iff.2 reached
        have after := ih (ticking.perform _) (by rw [kept]; exact timed) last.2 later
        rw [kept] at after
        simpa only [reached, and_false, false_or] using after
    · have moved := (perform_moves step due s ticking.closed).1
      have kept := moved.outstanding ticking (Ne.symm last.1) (ticking.not_hover now.valid)
        later.now.enabled later.now.attached
      have after := ih (ticking.perform _) (by rw [kept]; exact timed) last.2 later
      rw [kept] at after
      simpa only [due, false_and, false_or] using after

/-- An edit of an attached buffer leaves the buffer one timer. -/
theorem outstanding_edited (ticking : Ticking [] s)
    (edited : perform (.textChanged id) s = .ok answer s') (attached : id ∈ s'.attached) :
    ∃ t, s'.timers.outstanding id = [t] ∧ t.due = s.showTime := by
  obtain ⟨_, t, noted, answered⟩ := bind_ok.1 edited
  obtain ⟨-, rfl⟩ := pure_ok.1 answered
  simp only [onTextChanged, bind_ok, get_ok, exists_both_eq, ite_ok] at noted
  obtain ⟨-, started⟩ | ⟨free, nothing⟩ := noted
  · obtain rfl := startTimer_ok started
    exact ticking.tight.outstanding_trigger_self ticking.sound
  · obtain ⟨-, rfl⟩ := pure_ok.1 nothing
    exact absurd attached free

/-- After an edit of a buffer that goes on being previewed while no other edit of it follows, what
is due is run without drawing in the buffer until the delay has passed. The first run from then on
draws in the buffer once, and what the buffer shows is right for its text then, and no later run
draws in it. -/
theorem one_render_per_burst (new : IsNew s₀)
    (edited : perform (.textChanged id) (runSteps s₀ before) = .ok answer s₁)
    (last : .textChanged id ∉ during) (stays : StaysAttended id s₁ during) :
    ∃ n s', perform .runDue (runSteps s₁ during) = .ok (.count n) s' ∧
      (Reached (runSteps s₀ before).showTime (runSteps s₁ during) ∧
          ¬ RunSince (runSteps s₀ before).showTime s₁ during →
        s'.renders id = (runSteps s₁ during).renders id + 1 ∧
        ∃ b b', (runSteps s₁ during).host.buffers.get? id = some b ∧
          s'.host.buffers.get? id = some b' ∧ b'.text = b.text ∧ ShowsExactly s' id b') ∧
      (¬ Reached (runSteps s₀ before).showTime (runSteps s₁ during) ∨
          RunSince (runSteps s₀ before).showTime s₁ during →
        s'.renders id = (runSteps s₁ during).renders id ∧
        s'.host.buffers.get? id = (runSteps s₁ during).host.buffers.get? id) := by
  have ticking₀ : Ticking [] (runSteps s₀ before) := new.ticking.runSteps before
  have ticking₁ : Ticking [] s₁ := leaves_ok edited ▸ ticking₀.perform (.textChanged id)
  have ticking := ticking₁.runSteps during
  obtain ⟨t, single, due⟩ := outstanding_edited ticking₀ edited stays.now.attached
  obtain ⟨gone, kept⟩ := outstanding_during ticking₁
    (by rw [single]; exact List.forall_mem_singleton.2 due) last stays
  have attended := stays during [] (List.append_nil during).symm
  generalize (runSteps s₀ before).showTime = moment at *
  generalize runSteps s₁ during = s at *
  have isDue : s.timers.scheduler.isDue t = Instant.notAfter moment s.timers.scheduler.now := by
    rw [Scheduler.isDue, due]
  obtain ⟨b, isOpen⟩ := Table.contains_iff.1 attended.valid
  obtain ⟨n, s', run⟩ := runDue_ok s
  obtain ⟨-, seen⟩ := runDue_draws ticking attended.enabled isOpen run rfl
  obtain ⟨-, content, renders, redrawn⟩ := BufferSide.mk.inj seen
  refine ⟨n, s', bind_ok.2 ⟨n, s', run, rfl⟩, ?_, ?_⟩
  · rintro ⟨reached, not⟩
    have taken : (s.timers.outstanding id).filter s.timers.scheduler.isDue = [t] := by
      rw [kept not, single, List.filter_eq_self]
      exact List.forall_mem_singleton.2 (isDue.trans reached)
    rw [taken] at content renders
    refine ⟨renders, b, s.redrawn b, isOpen, content, Buffer.redrawn_text .., ?_⟩
    exact .of_redrawn content (congrFun redrawn b)
  · intro early
    have none : (s.timers.outstanding id).filter s.timers.scheduler.isDue = [] := by
      by_cases since : RunSince moment s₁ during
      · rw [gone since]
        rfl
      · have unripe := early.resolve_right since
        rw [kept since, single, List.filter_eq_nil_iff]
        exact List.forall_mem_singleton.2 fun ripe => unripe (isDue.symm.trans ripe)
    rw [none] at content renders
    exact ⟨renders, content.trans isOpen.symm⟩

/-! ### Examples of bursts -/

instance : Decidable (Attended id s) :=
  decidable_of_iff (s.enabled = true ∧ id ∈ s.attached ∧ s.host.isValid id = true)
    ⟨fun h => ⟨h.1, h.2.1, h.2.2⟩, fun h => ⟨h.enabled, h.attached, h.valid⟩⟩

instance : Decidable (Reached moment s) :=
  inferInstanceAs (Decidable (Instant.notAfter moment s.timers.scheduler.now = true))

instance decidableStaysAttended : ∀ (steps : List SessionStep) (s : Session τ),
    Decidable (StaysAttended id s steps)
  | [], _ => decidable_of_iff _ staysAttended_nil.symm
  | step :: steps, s =>
    have := decidableStaysAttended steps (leaves (perform step) s)
    decidable_of_iff _ staysAttended_cons.symm

instance decidableRunSince : ∀ (steps : List SessionStep) (s : Session τ),
    Decidable (RunSince moment s steps)
  | [], _ => isFalse runSince_nil
  | step :: steps, s =>
    have := decidableRunSince steps (leaves (perform step) s)
    decidable_of_iff _ runSince_cons.symm

end Clock

/-- Two buffers of a project are attached. -/
def twoAttached : List SessionStep :=
  [.openBuffer "/p/a.ts" (some "m.k()"), .attach (.number 1), .openBuffer "/p/b.ts" (some ""),
    .attach (.number 2)]

/-- After an edit of the first buffer has been noted, the buffer is changed again, the other buffer
is edited, and what is due is run too early. -/
def meanwhile : List SessionStep :=
  [.setText (.number 1) "m['k']()", .advance 100, .textChanged (.number 2), .runDue, .advance 50]

theorem one_render_per_burst_meanwhile : IsNew (onDisk nestedProject) ∧
    ∃ s₁, perform (.textChanged (.number 1)) (runSteps (onDisk nestedProject) twoAttached) =
        .ok .nothing s₁ ∧
      .textChanged (.number 1) ∉ meanwhile ∧ StaysAttended (.number 1) s₁ meanwhile ∧
      ∃ n s', perform .runDue (runSteps s₁ meanwhile) = .ok (.count n) s' ∧
        s'.renders (.number 1) = (runSteps s₁ meanwhile).renders (.number 1) + 1 ∧
        ∃ b, s'.host.buffers.get? (.number 1) = some b ∧ ShowsExactly s' (.number 1) b := by
  have evaluated : succeedsWith (fun answer s₁ => answer = .nothing ∧
      StaysAttended (.number 1) s₁ meanwhile ∧
      Reached (runSteps (onDisk nestedProject) twoAttached).showTime (runSteps s₁ meanwhile) ∧
      ¬ RunSince (runSteps (onDisk nestedProject) twoAttached).showTime s₁ meanwhile)
      (perform (.textChanged (.number 1))) (runSteps (onDisk nestedProject) twoAttached) =
        true := by
    decide +kernel
  obtain ⟨answer, s₁, edited, seen⟩ := ok_of_succeedsWith evaluated
  obtain ⟨rfl, stays, reached, not⟩ := of_decide_eq_true seen
  have last : .textChanged (.number 1) ∉ meanwhile := by decide
  obtain ⟨n, s', run, once, -⟩ := one_render_per_burst (onDisk_isNew _) edited last stays
  obtain ⟨renders, _, b, -, isOpen, -, shows⟩ := once ⟨reached, not⟩
  exact ⟨onDisk_isNew _, s₁, edited, last, stays, n, s', run, renders, b, isOpen, shows⟩

/-- A buffer is attached where there is no project. -/
def outsideProjects : List SessionStep :=
  [.openBuffer "/a.ts" (some "m.k()"), .attach (.number 1)]

/-- Without a project the run that shows an edit leaves the buffer empty, although its text has
annotations. -/
theorem undetected_burst_blank : IsNew (onDisk ⟨[]⟩) ∧
    ∃ s₁, perform (.textChanged (.number 1)) (runSteps (onDisk ⟨[]⟩) outsideProjects) =
        .ok .nothing s₁ ∧
      StaysAttended (.number 1) s₁ [.advance 150] ∧
      Reached (runSteps (onDisk ⟨[]⟩) outsideProjects).showTime (runSteps s₁ [.advance 150]) ∧
      ¬ RunSince (runSteps (onDisk ⟨[]⟩) outsideProjects).showTime s₁ [.advance 150] ∧
      ∃ s', perform .runDue (runSteps s₁ [.advance 150]) = .ok (.count 1) s' ∧
        ∃ b, s'.host.buffers.get? (.number 1) = some b ∧
          annotationsFor (.number 1) s' ≠ .ok (b.drawn s'.layer) s' := by
  have evaluated : succeedsWith (fun answer s₁ => answer = .nothing ∧
      StaysAttended (.number 1) s₁ [.advance 150] ∧
      Reached (runSteps (onDisk ⟨[]⟩) outsideProjects).showTime (runSteps s₁ [.advance 150]) ∧
      ¬ RunSince (runSteps (onDisk ⟨[]⟩) outsideProjects).showTime s₁ [.advance 150] ∧
      succeedsWith (fun answer s' => answer = .count 1 ∧
        ((s'.host.buffers.get? (.number 1)).any fun b =>
          s'.annotationsOfText b.text ≠ b.drawn s'.layer) = true)
        (perform .runDue) (runSteps s₁ [.advance 150]) = true)
      (perform (.textChanged (.number 1))) (runSteps (onDisk ⟨[]⟩) outsideProjects) = true := by
    decide +kernel
  obtain ⟨answer, s₁, edited, seen⟩ := ok_of_succeedsWith evaluated
  obtain ⟨rfl, stays, reached, not, ran⟩ := of_decide_eq_true seen
  obtain ⟨answer, s', run, blank⟩ := ok_of_succeedsWith ran
  obtain ⟨rfl, stale⟩ := of_decide_eq_true blank
  obtain ⟨b, isOpen, differ⟩ := Option.any_eq_true _ _ |>.1 stale
  refine ⟨onDisk_isNew _, s₁, edited, stays, reached, not, s', run, b, isOpen, fun shown => ?_⟩
  obtain ⟨b', isOpen', annotations, -⟩ := annotationsFor_ok.1 shown
  obtain rfl : b = b' := Option.some.inj (isOpen.symm.trans isOpen')
  exact of_decide_eq_true differ annotations

end MessageLens.Session
