import MessageLens.Editor.Handle
import MessageLens.Timer.Debouncer

/-!
# Timers whose tasks use timers

A task is a list of actions on the very scheduler that fires it: it may schedule, cancel, run what
is due or fail. Handles are remembered under names.
-/

namespace MessageLens
set_option autoImplicit false

/-- An action on timers. -/
inductive TimerAction where
  | schedule (name : String) (delayMs : Int) (task : List TimerAction)
  | trigger (name : String) (context : Handle) (delayMs : Int) (task : List TimerAction)
  | cancel (name : String)
  | cancelContext (context : Handle)
  | cancelAll
  | isPending (context : Handle)
  | advance (ms : Int)
  | runDue
  | fail (text : String)
  deriving Inhabited

/-- A task and the name of its timer. -/
structure NamedTask where
  name : String
  actions : List TimerAction
  deriving Inhabited

/-- Why an action fails. -/
inductive TimerFailure where
  | unknownTimer (name : String)
  | raised (text : String)
  /-- A delay is longer than the clock can express. -/
  | delayTooLong
  /-- Tasks ran what is due within each other beyond the given depth. -/
  | tooDeep

/-- What an action answers. -/
inductive TimerAnswer where
  | nothing
  | pending (b : Bool)
  | count (n : Nat)

/-- Timers with the handles remembered by name and the names of the timers fired, last first. -/
structure TimerBench (τ : Type) where
  timers : Debouncer τ Handle NamedTask
  handles : Table String TimerId := ∅
  fired : List String := []
  deriving Inhabited

namespace TimerBench

variable {τ : Type}

/-- The place of the timers. -/
def timersPart : Focus (TimerBench τ) (Debouncer τ Handle NamedTask) where
  get := timers
  put b d := { b with timers := d }

variable [Instant τ]

/-- Refuses a delay that the clock cannot express. -/
def checkDelay (delayMs : Int) : Operation TimerFailure (TimerBench τ) Unit := do
  if !(← timersPart.read).scheduler.accepts delayMs then throw .delayTooLong

/-- Performs an action; tasks may run what is due within each other up to a depth. -/
def performWithin : (depth : Nat) → TimerAction → Operation TimerFailure (TimerBench τ) TimerAnswer
  | 0, _ => throw .tooDeep
  | depth + 1, action => do
    match action with
    | .schedule name delay task =>
      checkDelay delay
      let id ← timersPart.update (·.schedule delay ⟨name, task⟩)
      modify fun b => { b with handles := b.handles.set name id }
      return .nothing
    | .trigger name context delay task =>
      timersPart.change (·.cancel context)
      checkDelay delay
      let id ← timersPart.update (·.trigger context delay ⟨name, task⟩)
      modify fun b => { b with handles := b.handles.set name id }
      return .nothing
    | .cancel name =>
      match (← get).handles.get? name with
      | none => throw (.unknownTimer name)
      | some id =>
        timersPart.change fun d => { d with scheduler := d.scheduler.cancel id }
        return .nothing
    | .cancelContext context => timersPart.change (·.cancel context); return .nothing
    | .cancelAll => timersPart.change (·.cancelAll); return .nothing
    | .isPending context => return .pending ((← timersPart.read).isPending context)
    | .advance ms => timersPart.change (·.advance ms); return .nothing
    | .runDue =>
      let n ← Debouncer.runDue timersPart fun t => do
        modify fun b => { b with fired := t.task.task.name :: b.fired }
        t.task.task.actions.forM fun a => discard (performWithin depth a)
      return .count n
    | .fail text => throw (.raised text)

end TimerBench

mutual

/-- The number of actions in an action and the tasks it schedules. -/
def TimerAction.size : TimerAction → Nat
  | .schedule _ _ task => 1 + TimerAction.sizes task
  | .trigger _ _ _ task => 1 + TimerAction.sizes task
  | _ => 1

/-- The number of actions in a list of actions. -/
def TimerAction.sizes : List TimerAction → Nat
  | [] => 0
  | a :: rest => a.size + TimerAction.sizes rest

end

namespace TimerBench

variable {τ : Type} [Instant τ]

/-- The number of actions that may still be performed without a new one from outside. -/
def outstanding (b : TimerBench τ) : Nat :=
  b.timers.scheduler.pending.foldl (fun n t => n + 1 + TimerAction.sizes t.task.task.actions) 0

/-- Performs an action. Every level of nesting takes a pending timer, so the number of outstanding
actions bounds the depth. -/
def perform (action : TimerAction) : Operation TimerFailure (TimerBench τ) TimerAnswer := do
  performWithin ((← get).outstanding + action.size + 1) action

end TimerBench

end MessageLens
