import Mathlib
import MessageLens.Proofs.Timer.Debouncer
import MessageLens.Proofs.Timer.Firing
import MessageLens.Proofs.Timer.History

/-!
# Every callback is called once and in order

Every timer of a history has been called, has been cancelled, is pending, or is in flight: taken off
the pending list by a batch that has not come to it yet. Programs keep it that way whatever is in
flight around them, and when no run is in progress nothing is in flight.
-/

namespace MessageLens
set_option autoImplicit false

open Operation

variable {τ α ρ ε β : Type}

namespace Scheduler

open TimerEvent

namespace Recorded

variable [Instant τ]

/-! ## Every timer is accounted for -/

/-- Every timer of the history has been called or cancelled, is pending, or is in flight. -/
structure Accounted (flight : List (Timer τ α)) (r : Recorded τ α ρ) : Prop where
  numbered : (scheduledIn r.history).map (·.id) = List.range r.scheduler.issued
  spent : ∀ id ∈ cancelledIn r.history, id < r.scheduler.issued
  cancelled : ∀ id, id ∈ r.scheduler.cancelled ↔ id ∈ cancelledIn r.history
  fired : ∀ id, id ∈ r.scheduler.fired ↔ id ∈ calledIn r.history
  pending : r.scheduler.pending = (scheduledIn r.history).filter fun t =>
    r.scheduler.isActive t.id = true ∧ t.id ∉ flight.map (·.id)
  flight : ∀ t ∈ flight, .scheduled t ∈ r.history ∧
    Instant.notAfter t.due r.scheduler.now = true
  runs : ∀ run t now, .called run t now ∈ r.history → run < runsIn r.history
  inTime : CalledInTime r.history
  inOrder : ∀ run, (calledBy run r.history).Pairwise Timer.Precedes

namespace Accounted

variable {flight rest : List (Timer τ α)} {r r' : Recorded τ α ρ} {t : Timer τ α} {id : TimerId}

theorem start (new : r.IsNew) : Accounted [] r := by
  obtain ⟨scheduler, history⟩ := new
  refine ⟨?_, ?_, fun id => ?_, fun id => ?_, ?_, ?_, ?_, ?_, fun run => ?_⟩
  all_goals
    rw [history]
  · rw [scheduler]; rfl
  · intro id mem; cases mem
  · rw [scheduler]; simp [cancelledIn]
  · rw [scheduler]; simp [calledIn]
  · rw [scheduler]; rfl
  · intro t mem; cases mem
  · intro run t now mem; cases mem
  · intro before run t now after split
    simp at split
  · exact List.Pairwise.nil

theorem id_lt (acc : Accounted flight r) (mem : .scheduled t ∈ r.history) :
    t.id < r.scheduler.issued := by
  have number : t.id ∈ (scheduledIn r.history).map (·.id) :=
    List.mem_map_of_mem (mem_scheduledIn.2 mem)
  rw [acc.numbered, List.mem_range] at number
  exact number

theorem called_lt (acc : Accounted flight r) (spent : id ∈ calledIn r.history) :
    id < r.scheduler.issued := by
  obtain ⟨run, t, now, call, rfl⟩ := mem_calledIn.1 spent
  obtain ⟨before, after, split⟩ := List.append_of_mem call
  have scheduled := (acc.inTime before run t now after split).1
  refine acc.id_lt ?_
  rw [split]
  exact List.mem_append_left _ scheduled

/-- A timer that cannot fire any more has been called or cancelled. -/
theorem isActive_iff (acc : Accounted flight r) : r.scheduler.isActive id = true ↔
    id ∉ calledIn r.history ∧ id ∉ cancelledIn r.history := by
  have cancelled := acc.cancelled id
  have fired := acc.fired id
  simp [isActive, cancelled, fired, and_comm]

/-- No two timers have the same number. -/
theorem eq_of_id (acc : Accounted flight r) {t' : Timer τ α} (mem : .scheduled t ∈ r.history)
    (mem' : .scheduled t' ∈ r.history) (same : t.id = t'.id) : t = t' := by
  have distinct : ((scheduledIn r.history).map (·.id)).Nodup := by
    rw [acc.numbered]
    exact List.nodup_range
  rw [List.nodup_iff_pairwise_ne, List.pairwise_map] at distinct
  by_cases equal : t = t'
  · exact equal
  · obtain before | before := pair_sublist (mem_scheduledIn.2 mem) (mem_scheduledIn.2 mem') equal
    · exact absurd same (List.pairwise_iff_forall_sublist.1 distinct before)
    · exact absurd same.symm (List.pairwise_iff_forall_sublist.1 distinct before)

theorem ordered (acc : Accounted flight r) : r.scheduler.pending.Pairwise (·.id < ·.id) := by
  have numbers : ((scheduledIn r.history).map (·.id)).Pairwise (· < ·) := by
    rw [acc.numbered]
    exact List.pairwise_lt_range
  rw [acc.pending]
  exact (List.pairwise_map.1 numbers).filter _

theorem mem_pending (acc : Accounted flight r) : t ∈ r.scheduler.pending ↔
    .scheduled t ∈ r.history ∧ r.scheduler.isActive t.id = true ∧ t.id ∉ flight.map (·.id) := by
  rw [acc.pending, List.mem_filter, mem_scheduledIn, decide_eq_true_eq]

/-! ### What one call keeps -/

theorem schedule (acc : Accounted flight r) {delayMs : Int} {task : α} :
    Accounted flight { r with
      scheduler := (r.scheduler.schedule delayMs task).2
      history := r.history ++ [.scheduled
        ⟨r.scheduler.issued, Instant.shift r.scheduler.now (max delayMs 0), task⟩] } := by
  have fresh : r.scheduler.issued ∉ flight.map (·.id) := by
    rw [List.mem_map]
    rintro ⟨t, mem, number⟩
    exact Nat.ne_of_lt (acc.id_lt (acc.flight t mem).1) number
  have active : r.scheduler.isActive r.scheduler.issued = true := by
    refine acc.isActive_iff.2 ⟨fun spent => ?_, fun spent => ?_⟩
    · exact Nat.lt_irrefl _ (acc.called_lt spent)
    · exact Nat.lt_irrefl _ (acc.spent _ spent)
  refine ⟨?_, fun id mem => ?_, fun id => ?_, fun id => ?_, ?_, fun t mem => ?_,
    fun run t now mem => ?_, acc.inTime.snoc (fun _ _ _ same => by cases same), fun run => ?_⟩
  · simp only [scheduledIn_append, scheduledIn, List.map_append, acc.numbered]
    exact List.range_succ.symm
  · simp only [cancelledIn_append, cancelledIn, List.append_nil] at mem
    exact Nat.lt_succ_of_lt (acc.spent id mem)
  · simpa [cancelledIn_append, cancelledIn, Scheduler.schedule] using acc.cancelled id
  · simpa [calledIn_append, calledIn, Scheduler.schedule] using acc.fired id
  · -- the new timer can still fire and is in no batch
    simp only [Scheduler.schedule, scheduledIn_append, scheduledIn, List.filter_append]
    rw [acc.pending]
    congr 1
    refine (List.filter_eq_self.2 fun t mem => ?_).symm
    obtain rfl := List.mem_singleton.1 mem
    exact decide_eq_true ⟨active, fresh⟩
  · obtain ⟨known, due⟩ := acc.flight t mem
    exact ⟨List.mem_append_left _ known, due⟩
  · simp only [runsIn_append, runsIn, List.mem_append, List.mem_singleton, reduceCtorEq,
      or_false] at mem ⊢
    exact acc.runs run t now mem
  · simpa [calledBy_append, calledBy] using acc.inOrder run

theorem cancel (acc : Accounted flight r) (known : id < r.scheduler.issued) :
    Accounted flight { r with
      scheduler := r.scheduler.cancel id, history := r.history ++ [.cancelled id] } := by
  refine ⟨?_, fun id' mem => ?_, fun id' => ?_, fun id' => ?_, ?_, fun t mem => ?_,
    fun run t now mem => ?_, acc.inTime.snoc (fun _ _ _ same => by cases same), fun run => ?_⟩
  · simpa [scheduledIn_append, scheduledIn, Scheduler.cancel] using acc.numbered
  · simp only [cancelledIn_append, cancelledIn, List.mem_append, List.mem_singleton] at mem
    obtain mem | rfl := mem
    · exact acc.spent id' mem
    · exact known
  · have before := acc.cancelled id'
    simp only [cancelledIn_append, cancelledIn, Scheduler.cancel, List.mem_append, List.mem_cons,
      List.not_mem_nil, or_false, before]
    exact or_comm
  · simpa [calledIn_append, calledIn, Scheduler.cancel] using acc.fired id'
  · have left : (r.scheduler.cancel id).pending = r.scheduler.pending.filter (·.id != id) := rfl
    simp only [scheduledIn_append, scheduledIn, List.append_nil]
    rw [left, acc.pending, List.filter_filter]
    refine List.filter_congr fun t mem => ?_
    rw [Bool.eq_iff_iff]
    simp [isActive_cancel, and_assoc]
  · obtain ⟨scheduled, due⟩ := acc.flight t mem
    exact ⟨List.mem_append_left _ scheduled, due⟩
  · simp only [runsIn_append, runsIn, List.mem_append, List.mem_singleton, reduceCtorEq,
      or_false] at mem ⊢
    exact acc.runs run t now mem
  · simpa [calledBy_append, calledBy] using acc.inOrder run

theorem wait [Instant.IsTotal τ] (acc : Accounted flight r) {now : τ}
    (forward : Instant.notAfter r.scheduler.now now = true) :
    Accounted flight { r with scheduler := { r.scheduler with now := now } } := by
  refine ⟨acc.numbered, acc.spent, acc.cancelled, acc.fired, acc.pending, fun t mem => ?_,
    acc.runs, acc.inTime, acc.inOrder⟩
  obtain ⟨known, due⟩ := acc.flight t mem
  exact ⟨known, Instant.IsTotal.trans _ _ _ due forward⟩

/-- A run begins by taking what is due off the pending list. -/
theorem begin (acc : Accounted flight r) :
    Accounted (r.scheduler.takeDue.1 ++ flight) { r with
      scheduler := r.scheduler.takeDue.2, history := r.history ++ [.began] } := by
  refine ⟨?_, fun id mem => ?_, fun id => ?_, fun id => ?_, ?_, fun t mem => ?_,
    fun run t now mem => ?_, acc.inTime.snoc (fun _ _ _ same => by cases same), fun run => ?_⟩
  · simpa [scheduledIn_append, scheduledIn, takeDue] using acc.numbered
  · simp only [cancelledIn_append, cancelledIn, List.append_nil] at mem
    exact acc.spent id mem
  · simpa [cancelledIn_append, cancelledIn, takeDue] using acc.cancelled id
  · simpa [calledIn_append, calledIn, takeDue] using acc.fired id
  · have left : r.scheduler.takeDue.2.pending =
        r.scheduler.pending.filter fun t => !r.scheduler.isDue t := rfl
    simp only [scheduledIn_append, scheduledIn, List.append_nil]
    rw [left, acc.pending, List.filter_filter]
    refine List.filter_congr fun t mem => ?_
    have known : .scheduled t ∈ r.history := mem_scheduledIn.1 mem
    have sameActive : r.scheduler.takeDue.2.isActive t.id = r.scheduler.isActive t.id := rfl
    rw [Bool.eq_iff_iff, sameActive]
    simp only [Bool.and_eq_true, Bool.not_eq_true', decide_eq_true_eq, List.map_append,
      List.mem_append, not_or]
    constructor
    · rintro ⟨notDue, active, out⟩
      refine ⟨active, fun taken => ?_, out⟩
      obtain ⟨t', taken', number⟩ := List.mem_map.1 taken
      obtain ⟨pending, due⟩ := mem_dueTimers.1 taken'
      obtain rfl := acc.eq_of_id (acc.mem_pending.1 pending).1 known number
      rw [due] at notDue
      cases notDue
    · rintro ⟨active, notTaken, out⟩
      refine ⟨Bool.eq_false_iff.2 fun due => notTaken ?_, active, out⟩
      have pending := acc.mem_pending.2 ⟨known, active, out⟩
      exact List.mem_map_of_mem (mem_dueTimers.2 ⟨pending, due⟩)
  · rw [List.mem_append] at mem
    obtain mem | mem := mem
    · obtain ⟨pending, due⟩ := mem_dueTimers.1 mem
      exact ⟨List.mem_append_left _ (acc.mem_pending.1 pending).1, due⟩
    · obtain ⟨known, due⟩ := acc.flight t mem
      exact ⟨List.mem_append_left _ known, due⟩
  · simp only [runsIn_append, runsIn, List.mem_append, List.mem_singleton, reduceCtorEq,
      or_false] at mem ⊢
    exact Nat.lt_succ_of_lt (acc.runs run t now mem)
  · simpa [calledBy_append, calledBy] using acc.inOrder run

/-- A timer of a batch that cannot fire any more is passed over. -/
theorem skip (acc : Accounted (t :: flight) r) (inactive : r.scheduler.isActive t.id = false) :
    Accounted flight r := by
  refine ⟨acc.numbered, acc.spent, acc.cancelled, acc.fired, ?_,
    fun t' mem => acc.flight t' (List.mem_cons_of_mem t mem), acc.runs, acc.inTime, acc.inOrder⟩
  rw [acc.pending]
  refine List.filter_congr fun t' mem => ?_
  by_cases same : t'.id = t.id
  · simp [same, inactive]
  · simp [same]

/-- A timer of a batch that can still fire is called. -/
theorem call (acc : Accounted (t :: flight) r) (active : r.scheduler.isActive t.id = true)
    {run : Nat} (begun : run < runsIn r.history)
    (inOrder : (calledBy run r.history ++ [t]).Pairwise Timer.Precedes) :
    Accounted flight { r with
      scheduler := r.scheduler.markFired t.id
      history := r.history ++ [.called run t r.scheduler.now] } := by
  obtain ⟨known, due⟩ := acc.flight t List.mem_cons_self
  obtain ⟨uncalled, uncancelled⟩ := acc.isActive_iff.1 active
  refine ⟨?_, fun id mem => ?_, fun id => ?_, fun id => ?_, ?_, fun t' mem => ?_,
    fun run' t' now mem => ?_, acc.inTime.snoc (fun run' t' now same => ?_), fun run' => ?_⟩
  · simpa [scheduledIn_append, scheduledIn, markFired] using acc.numbered
  · simp only [cancelledIn_append, cancelledIn, List.append_nil] at mem
    exact acc.spent id mem
  · simpa [cancelledIn_append, cancelledIn, markFired] using acc.cancelled id
  · have before := acc.fired id
    simp only [calledIn_append, calledIn, markFired, List.mem_append, List.mem_cons,
      List.not_mem_nil, or_false, before]
    exact or_comm
  · have left : (r.scheduler.markFired t.id).pending = r.scheduler.pending := rfl
    simp only [scheduledIn_append, scheduledIn, List.append_nil]
    rw [left, acc.pending]
    refine List.filter_congr fun t' mem => ?_
    rw [Bool.eq_iff_iff]
    simp only [decide_eq_true_eq, isActive_markFired, List.map_cons, List.mem_cons, not_or]
    exact and_left_comm.trans and_assoc.symm
  · obtain ⟨known', due'⟩ := acc.flight t' (List.mem_cons_of_mem t mem)
    exact ⟨List.mem_append_left _ known', due'⟩
  · simp only [runsIn_append, runsIn, List.mem_append, List.mem_singleton] at mem ⊢
    obtain old | new := mem
    · exact acc.runs run' t' now old
    · cases new
      exact begun
  · cases same
    exact ⟨known, uncalled, uncancelled, due⟩
  · rw [calledBy_append, calledBy, calledBy]
    by_cases own : run = run'
    · rw [if_pos own, ← own]
      exact inOrder
    · rw [if_neg own, List.append_nil]
      exact acc.inOrder run'

/-- What has nothing to do with the scheduler changes no account. -/
theorem congr (acc : Accounted flight r)
    (same : (r'.scheduler, r'.history) = (r.scheduler, r.history)) : Accounted flight r' := by
  obtain ⟨scheduler, history, rest⟩ := r
  obtain ⟨scheduler', history', rest'⟩ := r'
  obtain ⟨rfl, rfl⟩ := Prod.mk.inj same
  exact ⟨acc.numbered, acc.spent, acc.cancelled, acc.fired, acc.pending, acc.flight, acc.runs,
    acc.inTime, acc.inOrder⟩

end Accounted

/-! ## What follows a history -/

/-- The history has gone on, with no call by a run that had begun before. -/
def Continues (r r' : Recorded τ α ρ) : Prop :=
  ∃ more, r'.history = r.history ++ more ∧
    ∀ run t now, .called run t now ∈ more → runsIn r.history ≤ run

namespace Continues

variable {r r' r'' : Recorded τ α ρ} {id : TimerId} {run : Nat}

omit [Instant τ]

theorem refl : Continues r r :=
  ⟨[], (List.append_nil _).symm, fun _ _ _ mem => by cases mem⟩

/-- An event that is no call. -/
theorem of_event {e : TimerEvent τ α} (last : r'.history = r.history ++ [e])
    (noCall : ∀ run t now, e ≠ .called run t now) : Continues r r' := by
  refine ⟨[e], last, fun run t now mem => ?_⟩
  exact absurd (List.mem_singleton.1 mem).symm (noCall run t now)

theorem trans (first : Continues r r') (later : Continues r' r'') : Continues r r'' := by
  obtain ⟨more, split, others⟩ := first
  obtain ⟨more', split', others'⟩ := later
  refine ⟨more ++ more', ?_, fun run t now mem => ?_⟩
  · rw [split', split, List.append_assoc]
  · obtain mem | mem := List.mem_append.1 mem
    · exact others run t now mem
    · have bound := others' run t now mem
      rw [split, runsIn_append] at bound
      omega

theorem runsIn_le (since : Continues r r') : runsIn r.history ≤ runsIn r'.history := by
  obtain ⟨more, split, -⟩ := since
  rw [split, runsIn_append]
  exact Nat.le_add_right _ _

/-- A run that had begun before calls nothing more. -/
theorem calledBy_eq (since : Continues r r') (begun : run < runsIn r.history) :
    calledBy run r'.history = calledBy run r.history := by
  obtain ⟨more, split, others⟩ := since
  have none : calledBy run more = [] := by
    refine calledBy_eq_nil fun run' t now mem => ?_
    have bound := others run' t now mem
    omega
  rw [split, calledBy_append, none, List.append_nil]

/-- A timer that has been called or cancelled stays so. -/
theorem spent (since : Continues r r')
    (before : id ∈ calledIn r.history ∨ id ∈ cancelledIn r.history) :
    id ∈ calledIn r'.history ∨ id ∈ cancelledIn r'.history := by
  obtain ⟨more, split, -⟩ := since
  rw [split, calledIn_append, cancelledIn_append]
  exact before.imp (List.mem_append_left _) (List.mem_append_left _)

end Continues

/-! ## Batches -/

/-- A batch has been fired up to `rest`: what has been passed over or called is spent, and the calls
are in the order of the batch. `r₀` is the state in which the run was begun, and `flight` is what is
in flight besides the batch. -/
structure InBatch (r₀ : Recorded τ α ρ) (flight rest : List (Timer τ α)) (r : Recorded τ α ρ) :
    Prop where
  accounted : Accounted (rest ++ flight) r
  since : Continues r₀ r
  begun : runsIn r₀.history < runsIn r.history
  passed : ∃ passed, r₀.scheduler.dueTimers = passed ++ rest ∧
    (calledBy (runsIn r₀.history) r.history).Sublist passed ∧
    ∀ t ∈ passed, t.id ∈ calledIn r.history ∨ t.id ∈ cancelledIn r.history

/-- Whatever is in flight, the operation keeps the timers accounted for and continues the history. -/
def KeepsAccount (x : Operation ε (Recorded τ α ρ) β) : Prop :=
  ∀ ⦃flight r b r'⦄, Accounted flight r → x r = .ok b r' → Accounted flight r' ∧ Continues r r'

section Batch

variable {r₀ r r' : Recorded τ α ρ} {flight rest : List (Timer τ α)} {t : Timer τ α}

theorem InBatch.start (acc : Accounted flight r₀) : InBatch r₀ flight r₀.scheduler.dueTimers
    { r₀ with
      scheduler := r₀.scheduler.takeDue.2, history := r₀.history ++ [.began] } := by
  have noCalls : calledBy (runsIn r₀.history) r₀.history = [] := by
    refine calledBy_eq_nil fun run t now mem => ?_
    exact Nat.ne_of_lt (acc.runs run t now mem)
  refine ⟨acc.begin, .of_event rfl (fun _ _ _ same => by cases same), ?_, [], rfl, ?_, ?_⟩
  · simp [runsIn_append, runsIn]
  · simp [calledBy_append, calledBy, noCalls]
  · intro t mem
    cases mem

theorem InBatch.skip (inBatch : InBatch r₀ flight (t :: rest) r)
    (inactive : r.scheduler.isActive t.id = false) : InBatch r₀ flight rest r := by
  obtain ⟨acc, since, begun, passed, batch, calls, spent⟩ := inBatch
  refine ⟨acc.skip inactive, since, begun, passed ++ [t], ?_, ?_, fun t' mem => ?_⟩
  · rw [batch, List.append_assoc, List.singleton_append]
  · exact calls.trans (List.sublist_append_left _ _)
  · obtain mem | mem := List.mem_append.1 mem
    · exact spent t' mem
    · obtain rfl := List.mem_singleton.1 mem
      have notActive := mt acc.isActive_iff.2 (Bool.eq_false_iff.1 inactive)
      exact Classical.byContradiction fun neither => notActive (not_or.1 neither)

/-- The callback of a timer may do what programs do, other runs included. -/
theorem InBatch.call [Instant.IsTotal τ] {callback : Operation ε (Recorded τ α ρ) Unit}
    (ordered : r₀.scheduler.pending.Pairwise (·.id < ·.id))
    (inBatch : InBatch r₀ flight (t :: rest) r) (active : r.scheduler.isActive t.id = true)
    (keeps : KeepsAccount callback)
    (run : callback { r with
      scheduler := r.scheduler.markFired t.id
      history := r.history ++ [.called (runsIn r₀.history) t r.scheduler.now] } = .ok () r') :
    InBatch r₀ flight rest r' := by
  obtain ⟨acc, since, begun, passed, batch, calls, spent⟩ := inBatch
  have sub : (calledBy (runsIn r₀.history) r.history ++ [t]).Sublist (passed ++ [t]) :=
    calls.append_right [t]
  have inOrder : (calledBy (runsIn r₀.history) r.history ++ [t]).Pairwise Timer.Precedes := by
    have sorted := dueTimers_ordered ordered
    rw [batch, ← List.singleton_append, ← List.append_assoc] at sorted
    exact (sorted.sublist (List.sublist_append_left _ _)).sublist sub
  obtain ⟨acc', since'⟩ := keeps (acc.call active begun inOrder) run
  have begun' : runsIn r₀.history < runsIn (r.history ++ [.called (runsIn r₀.history) t
      r.scheduler.now]) := by
    simpa [runsIn_append, runsIn] using begun
  have called : Continues r₀ { r with
      scheduler := r.scheduler.markFired t.id
      history := r.history ++ [.called (runsIn r₀.history) t r.scheduler.now] } := by
    obtain ⟨more, split, others⟩ := since
    refine ⟨more ++ [.called (runsIn r₀.history) t r.scheduler.now], ?_, fun run t' now mem => ?_⟩
    · simp [split]
    · obtain mem | mem := List.mem_append.1 mem
      · exact others run t' now mem
      · cases List.mem_singleton.1 mem
        exact Nat.le_refl _
  refine ⟨acc', called.trans since', Nat.lt_of_lt_of_le begun' since'.runsIn_le,
    passed ++ [t], ?_, ?_, fun t' mem => since'.spent ?_⟩
  · rw [batch, List.append_assoc, List.singleton_append]
  · rw [since'.calledBy_eq begun', calledBy_append, calledBy, if_pos rfl]
    exact sub
  · rw [calledIn_append, cancelledIn_append]
    obtain mem | mem := List.mem_append.1 mem
    · exact (spent t' mem).imp (List.mem_append_left _) (List.mem_append_left _)
    · obtain rfl := List.mem_singleton.1 mem
      exact .inl (List.mem_append_right _ List.mem_cons_self)

/-- A run comes to the end of its batch. -/
theorem runDue_inBatch [Instant.IsTotal τ] {n : Nat}
    {callback : Timer τ α → Operation ε (Recorded τ α ρ) Unit}
    (keeps : ∀ t, KeepsAccount (callback t)) (acc : Accounted flight r)
    (run : runDue callback r = .ok n r') : InBatch r flight [] r' := by
  simp only [runDue, note, Scheduler.runDue, bind_ok, get_ok, exists_both_eq, modify_ok,
    exists_unit_eq, update_ok] at run
  refine runBatch_preserves (I := InBatch r flight) (fun t rest s inBatch inactive =>
    inBatch.skip inactive) (fun t rest s s' inBatch active fired => ?_) (.start acc) run
  simp only [bind_ok, get_ok, exists_both_eq, modify_ok, exists_unit_eq] at fired
  exact inBatch.call acc.ordered active (keeps t) fired

end Batch

/-! ## Programs -/

theorem Program.keepsAccount [Instant.IsTotal τ] {x : Operation ε (Recorded τ α ρ) β}
    (program : Program x) : KeepsAccount x := by
  induction program with
  | elsewhere keeps =>
    intro flight r b r' acc run
    have same := keeps.ok run
    refine ⟨acc.congr same, [], ?_, fun _ _ _ mem => by cases mem⟩
    rw [List.append_nil]
    exact (Prod.mk.inj same).2
  | bind _ _ first later =>
    intro flight r c r' acc run
    obtain ⟨b, r₁, run₁, run₂⟩ := bind_ok.1 run
    obtain ⟨acc₁, since₁⟩ := first acc run₁
    obtain ⟨acc₂, since₂⟩ := later b acc₁ run₂
    exact ⟨acc₂, since₁.trans since₂⟩
  | wait forward =>
    intro flight r b r' acc run
    obtain rfl := modify_ok.1 run
    exact ⟨acc.wait (forward r), .refl⟩
  | schedule delayMs task =>
    intro flight r id r' acc run
    simp only [Recorded.schedule, note, bind_ok, get_ok, exists_both_eq, update_ok, modify_ok,
      exists_unit_eq, pure_ok] at run
    obtain ⟨-, rfl⟩ := run
    exact ⟨acc.schedule, .of_event rfl fun _ _ _ same => by cases same⟩
  | cancel id =>
    intro flight r b r' acc run
    simp only [Recorded.cancel, note, bind_ok, get_ok, exists_both_eq, ite_ok, change_ok,
      exists_unit_eq, modify_ok, pure_ok] at run
    obtain ⟨known, rfl⟩ | ⟨-, -, rfl⟩ := run
    · exact ⟨acc.cancel known, .of_event rfl fun _ _ _ same => by cases same⟩
    · exact ⟨acc, .refl⟩
  | runDue _ callbacks =>
    intro flight r n r' acc run
    have inBatch := runDue_inBatch callbacks acc run
    exact ⟨inBatch.accounted, inBatch.since⟩

/-- When nothing is in flight the pending timers are those that are live. -/
theorem Accounted.pending_eq_live {r : Recorded τ α ρ} (acc : Accounted [] r) :
    r.scheduler.pending = live r.history := by
  rw [acc.pending, live]
  refine List.filter_congr fun t _ => ?_
  rw [Bool.eq_iff_iff]
  simp [acc.isActive_iff]

/-- What is scheduled during a run is not called by it. -/
theorem InBatch.not_called_of_scheduled {r₀ r : Recorded τ α ρ} {flight : List (Timer τ α)}
    (acc₀ : Accounted flight r₀) (inBatch : InBatch r₀ flight [] r) {t : Timer τ α}
    (scheduled : t ∈ scheduledIn (r.history.drop r₀.history.length)) :
    t ∉ calledBy (runsIn r₀.history) r.history := by
  intro called
  obtain ⟨acc, ⟨more, split, -⟩, -, passed, batch, calls, -⟩ := inBatch
  rw [List.append_nil] at batch
  rw [split, List.drop_left] at scheduled
  have due : t ∈ r₀.scheduler.dueTimers := batch ▸ calls.subset called
  have before := (acc₀.mem_pending.1 (mem_dueTimers.1 due).1).1
  have distinct : ((scheduledIn r.history).map (·.id)).Nodup := by
    rw [acc.numbered]
    exact List.nodup_range
  rw [split, scheduledIn_append, List.map_append] at distinct
  exact (List.nodup_append.1 distinct).2.2 _ (List.mem_map_of_mem (mem_scheduledIn.2 before)) _
    (List.mem_map_of_mem scheduled) rfl

/-- The callback of every timer is called at most once, not before it is due and not after it has
been cancelled; what is pending is, in order of scheduling, what has neither been called nor been
cancelled; the callbacks of a run are called in order; and a run leaves nothing behind that was
pending and due when it began, and calls nothing that is scheduled during it. -/
theorem callbacks_once_in_order [Instant.IsTotal τ] {r₀ r : Recorded τ α ρ} {b : β}
    {x : Operation ε (Recorded τ α ρ) β} (new : r₀.IsNew) (program : Program x)
    (run : x r₀ = .ok b r) :
    CalledInTime r.history ∧ r.scheduler.pending = live r.history ∧
    (∀ run, (calledBy run r.history).Pairwise Timer.Precedes) ∧
    ∀ (callback : Timer τ α → Operation ε (Recorded τ α ρ) Unit) (n : Nat) (r' : Recorded τ α ρ),
      (∀ t, Program (callback t)) → runDue callback r = .ok n r' →
      (∀ t ∈ r.scheduler.pending, r.scheduler.isDue t = true →
        t.id ∈ calledIn r'.history ∨ t.id ∈ cancelledIn r'.history) ∧
      ∀ t ∈ scheduledIn (r'.history.drop r.history.length),
        t ∉ calledBy (runsIn r.history) r'.history := by
  obtain ⟨acc, -⟩ := program.keepsAccount (Accounted.start new) run
  refine ⟨acc.inTime, acc.pending_eq_live, acc.inOrder, fun callback n r' callbacks ran => ?_⟩
  have inBatch := runDue_inBatch (fun t => (callbacks t).keepsAccount) acc ran
  refine ⟨fun t pending due => ?_, fun t scheduled => inBatch.not_called_of_scheduled acc scheduled⟩
  obtain ⟨passed, batch, -, spent⟩ := inBatch.passed
  rw [List.append_nil] at batch
  exact spent t (batch ▸ mem_dueTimers.2 ⟨pending, due⟩)

/-- A callback that cancels its own timer and the one scheduled after it, schedules another one
without delay and runs what is due, if it is the first one. -/
def meddle (t : Timer Int Nat) : Operation Unit (Recorded Int Nat Unit) Unit :=
  if t.task = 0 then do
    cancel t.id
    cancel (t.id + 1)
    let _ ← schedule 0 3
    let _ ← runDue fun _ => pure ()
  else pure ()

/-- Three timers, of which the first two are due together and the third is not due yet, are run. -/
def meddled : Operation Unit (Recorded Int Nat Unit) Unit := do
  let _ ← schedule 5 0
  let _ ← schedule 5 1
  let _ ← schedule 8 2
  wait (·.scheduler.now + 6)
  let _ ← runDue meddle
  wait (·.scheduler.now + 6)

theorem meddle_program (t : Timer Int Nat) : Program (meddle t) := by
  have idle : Program (pure () : Operation Unit (Recorded Int Nat Unit) Unit) :=
    .elsewhere (.pure ())
  rw [meddle]
  split
  · refine .bind (.cancel _) fun _ => .bind (.cancel _) fun _ => .bind (.schedule _ _) fun _ => ?_
    exact .bind (.runDue fun _ => idle) fun _ => idle
  · exact idle

theorem meddled_program : Program meddled := by
  have forward : ∀ r : Recorded Int Nat Unit,
      Instant.notAfter r.scheduler.now (r.scheduler.now + 6) = true := by
    intro r
    simp only [Instant.notAfter, decide_eq_true_eq]
    omega
  refine .bind (.schedule _ _) fun _ => .bind (.schedule _ _) fun _ =>
    .bind (.schedule _ _) fun _ => .bind (.wait forward) fun _ => ?_
  exact .bind (.runDue meddle_program) fun _ => .wait forward

/-- The first timer's callback has been called, the second timer is cancelled while it is in flight,
the timer scheduled meanwhile is called by the run within the first one, and the third timer is
called by a later run. -/
theorem callbacks_once_in_order_meddled :
    ∃ r n r', meddled { scheduler := { now := 0 }, history := [], rest := () } = .ok () r ∧
      runDue meddle r = .ok n r' ∧
      calledIn r.history = [0, 3] ∧ cancelledIn r.history = [0, 1] ∧ calledIn r'.history = [0, 3, 2] ∧
      CalledInTime r.history ∧ r.scheduler.pending = live r.history ∧
      (∀ run, (calledBy run r.history).Pairwise Timer.Precedes) ∧
      ∀ t ∈ r.scheduler.pending, r.scheduler.isDue t = true →
        t.id ∈ calledIn r'.history ∨ t.id ∈ cancelledIn r'.history := by
  have evaluated : succeedsWith (fun _ r => succeedsWith (fun _ r' =>
      calledIn r.history = [0, 3] ∧ cancelledIn r.history = [0, 1] ∧
        calledIn r'.history = [0, 3, 2]) (runDue meddle) r) meddled
      { scheduler := { now := 0 }, history := [], rest := () } = true := by cbv
  obtain ⟨⟨⟩, r, run, later⟩ := ok_of_succeedsWith evaluated
  obtain ⟨n, r', ran, seen⟩ := ok_of_succeedsWith later
  obtain ⟨called, cancelled, called'⟩ := of_decide_eq_true seen
  obtain ⟨inTime, pending, inOrder, batches⟩ :=
    callbacks_once_in_order ⟨rfl, rfl⟩ meddled_program run
  exact ⟨r, n, r', run, ran, called, cancelled, called', inTime, pending, inOrder,
    (batches meddle n r' meddle_program ran).1⟩

end Recorded
end Scheduler
end MessageLens
