import MessageLens.Focus
import MessageLens.Timer.Instant

/-!
# The scheduler

Timers are held until the owner of the scheduler runs those that are due. A batch is taken off the
pending list first and then fired in order of due time, those due together in order of scheduling;
a timer that an earlier one of the batch has cancelled is passed over.
-/

namespace MessageLens
set_option autoImplicit false

variable {σ τ α ε : Type}

/-- The number of a timer, in order of scheduling. -/
abbrev TimerId := Nat

/-- A scheduled task. -/
structure Timer (τ α : Type) where
  id : TimerId
  due : τ
  task : α
  deriving Repr, Inhabited

/-- The clock and the timers of a program. -/
structure Scheduler (τ α : Type) where
  now : τ
  /-- How many timers have been scheduled. -/
  issued : Nat := 0
  /-- The outstanding timers in order of scheduling. -/
  pending : List (Timer τ α) := []
  cancelled : List TimerId := []
  fired : List TimerId := []
  deriving Repr, Inhabited

namespace Scheduler

/-- Whether a timer can still fire. -/
def isActive (s : Scheduler τ α) (id : TimerId) : Bool :=
  !(s.cancelled.contains id || s.fired.contains id)

/-- Cancels a timer, also one that has fired. -/
def cancel (s : Scheduler τ α) (id : TimerId) : Scheduler τ α :=
  { s with cancelled := id :: s.cancelled, pending := s.pending.filter (·.id != id) }

/-- Notes that a timer fires. -/
def markFired (s : Scheduler τ α) (id : TimerId) : Scheduler τ α :=
  { s with fired := id :: s.fired }

variable [Instant τ]

/-- Whether a task can be scheduled after a delay. -/
def accepts (_ : Scheduler τ α) (delayMs : Int) : Bool := Instant.reaches τ (max delayMs 0)

/-- Schedules a task after a delay, which counts as zero when it is negative. -/
def schedule (s : Scheduler τ α) (delayMs : Int) (task : α) : TimerId × Scheduler τ α :=
  (s.issued, { s with
    issued := s.issued + 1
    pending := s.pending ++ [⟨s.issued, Instant.shift s.now (max delayMs 0), task⟩] })

/-- Moves the clock. -/
def advance (s : Scheduler τ α) (ms : Int) : Scheduler τ α :=
  { s with now := Instant.shift s.now ms }

/-- Whether a timer's time has come. -/
def isDue (s : Scheduler τ α) (t : Timer τ α) : Bool := Instant.notAfter t.due s.now

/-- The pending timers that are due, in the order in which they fire. -/
def dueTimers (s : Scheduler τ α) : List (Timer τ α) :=
  (s.pending.filter s.isDue).mergeSort fun a b => Instant.notAfter a.due b.due

/-- Takes the due timers off the pending list. -/
def takeDue (s : Scheduler τ α) : List (Timer τ α) × Scheduler τ α :=
  (s.dueTimers, { s with pending := s.pending.filter fun t => !s.isDue t })

/-- Fires the timers of a batch that are still active when their turn comes; the number fired. -/
def runBatch (at' : Focus σ (Scheduler τ α)) (fire : Timer τ α → Operation ε σ Unit) :
    List (Timer τ α) → Operation ε σ Nat
  | [] => return 0
  | t :: rest => do
    if (← at'.read).isActive t.id then
      at'.change (·.markFired t.id)
      fire t
      return (← runBatch at' fire rest) + 1
    else runBatch at' fire rest

/-- Fires every timer whose time has come; the number fired. -/
def runDue (at' : Focus σ (Scheduler τ α)) (fire : Timer τ α → Operation ε σ Unit) :
    Operation ε σ Nat := do
  runBatch at' fire (← at'.update takeDue)

/-- The seconds until the earliest pending timer. -/
def nextDelay (s : Scheduler Float α) : Option Float :=
  match s.pending.map (·.due) with
  | [] => none
  | due :: rest =>
    let wait := rest.foldl min due - s.now
    some (if 0 > wait then 0 else wait)

end Scheduler

end MessageLens
