import MessageLens.Proofs.Operation
import MessageLens.Timer.Scheduler

/-!
# Histories of timers

To say what becomes of timers, a scheduler is recorded together with the history of what has been
done with it: which timers have been scheduled and cancelled, when a run of what is due has begun,
and which callbacks it has called. A program is anything that uses the scheduler by its calls alone,
and callbacks are programs too: they schedule and cancel timers, and they run what is due while the
batch that they belong to is not through.
-/

namespace MessageLens
set_option autoImplicit false

open Operation

variable {τ α ρ ε β γ : Type}

/-- What is done with the timers of a scheduler. -/
inductive TimerEvent (τ α : Type) where
  | scheduled (t : Timer τ α)
  | cancelled (id : TimerId)
  /-- A run of what is due begins. -/
  | began
  /-- The callback of a timer is called by the run of that number. -/
  | called (run : Nat) (t : Timer τ α) (now : τ)

namespace TimerEvent

/-- The timers scheduled in a history, in order. -/
def scheduledIn : List (TimerEvent τ α) → List (Timer τ α)
  | [] => []
  | scheduled t :: h => t :: scheduledIn h
  | _ :: h => scheduledIn h

/-- The timers cancelled in a history. -/
def cancelledIn : List (TimerEvent τ α) → List TimerId
  | [] => []
  | cancelled id :: h => id :: cancelledIn h
  | _ :: h => cancelledIn h

/-- The timers whose callbacks have been called in a history. -/
def calledIn : List (TimerEvent τ α) → List TimerId
  | [] => []
  | called _ t _ :: h => t.id :: calledIn h
  | _ :: h => calledIn h

/-- The timers whose callbacks a run has called, in order. -/
def calledBy (run : Nat) : List (TimerEvent τ α) → List (Timer τ α)
  | [] => []
  | called run' t _ :: h => if run' = run then t :: calledBy run h else calledBy run h
  | _ :: h => calledBy run h

/-- The number of runs begun in a history, which is the number of the next one. -/
def runsIn : List (TimerEvent τ α) → Nat
  | [] => 0
  | began :: h => runsIn h + 1
  | _ :: h => runsIn h

/-- The timers of a history that have neither been called nor been cancelled, in order of
scheduling. -/
def live (h : List (TimerEvent τ α)) : List (Timer τ α) :=
  (scheduledIn h).filter fun t => t.id ∉ calledIn h ∧ t.id ∉ cancelledIn h

/-- Whenever a callback is called, its timer has been scheduled and is due, and it has neither been
called nor been cancelled before. -/
def CalledInTime [Instant τ] (h : List (TimerEvent τ α)) : Prop :=
  ∀ before run t now after, h = before ++ called run t now :: after →
    scheduled t ∈ before ∧ t.id ∉ calledIn before ∧ t.id ∉ cancelledIn before ∧
      Instant.notAfter t.due now = true

/-! ## Histories, event by event -/

section Events

variable {h more : List (TimerEvent τ α)} {e : TimerEvent τ α} {t : Timer τ α} {id : TimerId}
  {run : Nat}

theorem mem_scheduledIn : t ∈ scheduledIn h ↔ .scheduled t ∈ h := by
  induction h with
  | nil => simp [scheduledIn]
  | cons e h ih => cases e <;> simp [scheduledIn, ih]

theorem mem_calledIn : id ∈ calledIn h ↔ ∃ run t now, .called run t now ∈ h ∧ t.id = id := by
  induction h with
  | nil => simp [calledIn]
  | cons e h ih =>
    cases e with
    | called run t now =>
      simp only [calledIn, List.mem_cons, ih]
      constructor
      · rintro (rfl | ⟨run', t', now', mem, number⟩)
        · exact ⟨run, t, now, .inl rfl, rfl⟩
        · exact ⟨run', t', now', .inr mem, number⟩
      · rintro ⟨run', t', now', same | mem, number⟩
        · cases same
          exact .inl number.symm
        · exact .inr ⟨run', t', now', mem, number⟩
    | _ => simp [calledIn, ih]

theorem calledBy_eq_nil (other : ∀ run' t now, .called run' t now ∈ h → run' ≠ run) :
    calledBy run h = [] := by
  induction h with
  | nil => rfl
  | cons e h ih =>
    have rest := ih fun run' t now mem => other run' t now (List.mem_cons_of_mem e mem)
    cases e with
    | called run' t now =>
      rw [calledBy, if_neg (other run' t now List.mem_cons_self), rest]
    | _ => exact rest

theorem scheduledIn_append : scheduledIn (h ++ more) = scheduledIn h ++ scheduledIn more := by
  fun_induction scheduledIn h <;> simp_all [scheduledIn]

theorem cancelledIn_append : cancelledIn (h ++ more) = cancelledIn h ++ cancelledIn more := by
  fun_induction cancelledIn h <;> simp_all [cancelledIn]

theorem calledIn_append : calledIn (h ++ more) = calledIn h ++ calledIn more := by
  fun_induction calledIn h <;> simp_all [calledIn]

theorem calledBy_append : calledBy run (h ++ more) = calledBy run h ++ calledBy run more := by
  fun_induction calledBy run h <;> simp_all [calledBy]

theorem runsIn_append : runsIn (h ++ more) = runsIn h + runsIn more := by
  fun_induction runsIn h with
  | case1 => simp
  | case2 h ih =>
    simp only [List.cons_append, runsIn, ih]
    omega
  | case3 e h other ih => simpa [runsIn, other] using ih

/-- A call is in time if its timer can still fire and is due. -/
theorem CalledInTime.snoc [Instant τ] (inTime : CalledInTime h)
    (last : ∀ run t now, e = .called run t now → .scheduled t ∈ h ∧ t.id ∉ calledIn h ∧
      t.id ∉ cancelledIn h ∧ Instant.notAfter t.due now = true) : CalledInTime (h ++ [e]) := by
  intro before run t now after split
  obtain ⟨rfl, same, -⟩ | ⟨after', rfl, -⟩ := snoc_split split
  · exact last run t now same.symm
  · exact inTime before run t now after' rfl

end Events

end TimerEvent

namespace Scheduler

open TimerEvent

/-- A scheduler with the history of what has been done with it, in a program with other data. -/
structure Recorded (τ α ρ : Type) where
  scheduler : Scheduler τ α
  history : List (TimerEvent τ α)
  rest : ρ

namespace Recorded

/-- The place of the scheduler. -/
def timers : Focus (Recorded τ α ρ) (Scheduler τ α) where
  get := scheduler
  put r s := { r with scheduler := s }

/-- Adds an event to the history. -/
def note (e : TimerEvent τ α) : Operation ε (Recorded τ α ρ) Unit :=
  modify fun r => { r with history := r.history ++ [e] }

/-- Nothing has been done with the scheduler yet. -/
structure IsNew (r : Recorded τ α ρ) : Prop where
  scheduler : r.scheduler = { now := r.scheduler.now }
  history : r.history = []

/-- Cancels a timer that has been scheduled; there are no others to be cancelled. -/
def cancel (id : TimerId) : Operation ε (Recorded τ α ρ) Unit := do
  if id < (← get).scheduler.issued then
    timers.change (·.cancel id)
    note (.cancelled id)

/-- Lets the clock go on. -/
def wait (now : Recorded τ α ρ → τ) : Operation ε (Recorded τ α ρ) Unit :=
  modify fun r => { r with scheduler := { r.scheduler with now := now r } }

variable [Instant τ]

/-- Schedules a task. -/
def schedule (delayMs : Int) (task : α) : Operation ε (Recorded τ α ρ) TimerId := do
  let now := (← get).scheduler.now
  let id ← timers.update (·.schedule delayMs task)
  note (.scheduled ⟨id, Instant.shift now (max delayMs 0), task⟩)
  return id

/-- Runs what is due, given what the callbacks do. -/
def runDue (callback : Timer τ α → Operation ε (Recorded τ α ρ) Unit) :
    Operation ε (Recorded τ α ρ) Nat := do
  let run := runsIn (← get).history
  note .began
  Scheduler.runDue timers fun t => do
    note (.called run t (← get).scheduler.now)
    callback t

/-- What a user of the scheduler may do, in and outside of callbacks: anything that has nothing to
do with the scheduler, and calls of the scheduler in any order. Callbacks may depend on the whole
state; the clock never goes back. -/
inductive Program : {β : Type} → Operation ε (Recorded τ α ρ) β → Prop where
  | elsewhere {β : Type} {x : Operation ε (Recorded τ α ρ) β}
      (keeps : Keeps (fun r => (r.scheduler, r.history)) x) : Program x
  | bind {β γ : Type} {x : Operation ε (Recorded τ α ρ) β}
      {k : β → Operation ε (Recorded τ α ρ) γ} (first : Program x)
      (later : ∀ b, Program (k b)) : Program (x >>= k)
  | wait {now : Recorded τ α ρ → τ}
      (forward : ∀ r, Instant.notAfter r.scheduler.now (now r) = true) : Program (wait now)
  | schedule (delayMs : Int) (task : α) : Program (schedule delayMs task)
  | cancel (id : TimerId) : Program (cancel id)
  | runDue {callback : Timer τ α → Operation ε (Recorded τ α ρ) Unit}
      (callbacks : ∀ t, Program (callback t)) : Program (runDue callback)

end Recorded
end Scheduler
end MessageLens
