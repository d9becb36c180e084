import MessageLens.File.Change
import MessageLens.Watch.Watcher

/-!
# Watches whose callbacks use the watcher

A callback is a list of actions: on the very watcher that runs it, or on the files it watches.
-/

namespace MessageLens
set_option autoImplicit false

/-- An action on a watcher or on the watched files. -/
inductive WatchAction where
  | watch (p : Path) (name : Int) (callback : List WatchAction)
  | clear
  | poll
  | change (c : FileChange)
  | fail (text : String)
  deriving Inhabited

/-- A callback and the name under which its runs are noted. -/
structure NamedCallback where
  name : Int
  actions : List WatchAction
  deriving Inhabited

/-- Why an action fails. -/
inductive WatchFailure where
  | file (e : FileError)
  | raised (text : String)
  /-- Callbacks polled within each other beyond the given depth. -/
  | tooDeep

/-- A watcher with the files it watches, the runs of callbacks and the log, both last first. -/
structure WatchBench where
  workspace : Workspace := {}
  watcher : Watcher NamedCallback := {}
  runs : List (Int × Path) := []
  records : List LogRecord := []
  deriving Inhabited

namespace WatchBench

/-- Runs a computation that may fail because of a file. -/
def ofFile {α : Type} : Except FileError α → Operation WatchFailure WatchBench α
  | .ok a => return a
  | .error e => throw (.file e)

/-- The owner of the watcher, given how callbacks are run. -/
def owner (call : NamedCallback → Path → Operation WatchFailure WatchBench Unit) :
    WatchOwner WatchFailure WatchBench NamedCallback where
  watcher := { get := watcher, put := fun b w => { b with watcher := w } }
  stamp p := do ofFile ((← get).workspace.stamp? p)
  report r := modify fun b => { b with records := r :: b.records }
  call := call

/-- Performs an action; callbacks may poll within each other up to a depth. The paths are those that
a poll has found changed. -/
def performWithin : (depth : Nat) → WatchAction →
    Operation WatchFailure WatchBench (Option (List Path))
  | 0, _ => throw .tooDeep
  | depth + 1, action => do
    let owner := owner fun callback p => do
      modify fun b => { b with runs := (callback.name, p) :: b.runs }
      callback.actions.forM fun a => discard (performWithin depth a)
    match action with
    | .watch p name callback => owner.watch p ⟨name, callback⟩; return none
    | .clear => owner.watcher.change (·.clear); return none
    | .poll => return some (← owner.poll)
    | .change c =>
      let w ← ofFile ((← get).workspace.apply c)
      modify fun b => { b with workspace := w }
      return none
    | .fail text => throw (.raised text)

/-- How deep callbacks may poll within each other. -/
def maxDepth : Nat := 200

/-- Performs an action. -/
def perform (action : WatchAction) : Operation WatchFailure WatchBench (Option (List Path)) :=
  performWithin maxDepth action

end WatchBench

end MessageLens
