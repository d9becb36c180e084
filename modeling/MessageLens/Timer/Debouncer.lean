import MessageLens.Table
import MessageLens.Timer.Scheduler

/-!
# Debounced timers

For each context at most one timer is outstanding: a new trigger of the context cancels the one
before it. A timer that fires gives its context free before its task runs.
-/

namespace MessageLens
set_option autoImplicit false

variable {σ τ κ α ε : Type}

/-- What a timer does, and the context it was triggered for, if any. -/
structure Job (κ α : Type) where
  context : Option κ
  task : α
  deriving Repr, Inhabited

/-- A scheduler together with the outstanding timer of every context. -/
structure Debouncer (τ κ α : Type) where
  scheduler : Scheduler τ (Job κ α)
  handles : Table κ TimerId := ∅
  deriving Inhabited

namespace Debouncer

variable [DecidableEq κ]

/-- Whether a context has an outstanding timer. -/
def isPending (d : Debouncer τ κ α) (context : κ) : Bool := d.handles.contains context

/-- Cancels the outstanding timer of a context. -/
def cancel (d : Debouncer τ κ α) (context : κ) : Debouncer τ κ α :=
  match d.handles.get? context with
  | none => d
  | some id => { scheduler := d.scheduler.cancel id, handles := d.handles.erase context }

/-- Cancels the outstanding timers of all contexts. -/
def cancelAll (d : Debouncer τ κ α) : Debouncer τ κ α := d.handles.keys.foldl cancel d

/-- Gives a context free when its own timer fires. -/
def release (d : Debouncer τ κ α) (t : Timer τ (Job κ α)) : Debouncer τ κ α :=
  match t.task.context with
  | none => d
  | some context =>
    if d.handles.get? context = some t.id then { d with handles := d.handles.erase context } else d

variable [Instant τ]

/-- Schedules a task that belongs to no context. -/
def schedule (d : Debouncer τ κ α) (delayMs : Int) (task : α) : TimerId × Debouncer τ κ α :=
  let (id, s) := d.scheduler.schedule delayMs ⟨none, task⟩
  (id, { d with scheduler := s })

/-- Schedules a task for a context in place of the outstanding one. -/
def trigger (d : Debouncer τ κ α) (context : κ) (delayMs : Int) (task : α) :
    TimerId × Debouncer τ κ α :=
  let d := d.cancel context
  let (id, s) := d.scheduler.schedule delayMs ⟨some context, task⟩
  (id, { scheduler := s, handles := d.handles.set context id })

/-- Moves the clock. -/
def advance (d : Debouncer τ κ α) (ms : Int) : Debouncer τ κ α :=
  { d with scheduler := d.scheduler.advance ms }

/-- Fires every timer whose time has come; the number fired. -/
def runDue (at' : Focus σ (Debouncer τ κ α)) (fire : Timer τ (Job κ α) → Operation ε σ Unit) :
    Operation ε σ Nat :=
  Scheduler.runDue
    { get := fun s => (at'.get s).scheduler
      put := fun s x => at'.put s { at'.get s with scheduler := x }
      get_put := by simp [at'.get_put]
      put_get := by simp [at'.put_get]
      put_put := by simp [at'.get_put, at'.put_put] }
    fun t => do
      at'.change (·.release t)
      fire t

end Debouncer

end MessageLens
