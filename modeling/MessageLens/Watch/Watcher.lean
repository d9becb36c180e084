import MessageLens.File.Workspace
import MessageLens.Focus
import MessageLens.Journal

/-!
# The watcher

Files are watched by comparing their stamps with the ones recorded before, whenever the owner of the
watcher polls. A callback may clear the watcher and register anew; what was registered before is
then passed over for the rest of the poll.
-/

namespace MessageLens
set_option autoImplicit false

variable {σ κ ε : Type}

/-- A watched path with the stamp recorded last and the callbacks in order of registration. -/
structure Watch (κ : Type) where
  path : Path
  stamp : Option FileStamp
  callbacks : List κ
  /-- The number of the registration that began the watch. -/
  registration : Nat
  deriving Repr, Inhabited

/-- The watches in order of their registration. -/
structure Watcher (κ : Type) where
  watches : List (Watch κ) := []
  /-- How many watches have been begun. -/
  begun : Nat := 0
  deriving Repr, Inhabited

namespace Watcher

/-- The watch of a path. -/
def find? (w : Watcher κ) (p : Path) : Option (Watch κ) := w.watches.find? (·.path == p)

/-- Adds a callback to the watch of a path. -/
def addCallback (w : Watcher κ) (p : Path) (callback : κ) : Watcher κ :=
  { w with watches := w.watches.map fun x =>
      if x.path = p then { x with callbacks := x.callbacks ++ [callback] } else x }

/-- Begins the watch of a path. -/
def begin (w : Watcher κ) (p : Path) (stamp : Option FileStamp) (callback : κ) : Watcher κ :=
  { watches := w.watches ++ [⟨p, stamp, [callback], w.begun⟩], begun := w.begun + 1 }

/-- Records the stamp of a path. -/
def record (w : Watcher κ) (p : Path) (stamp : Option FileStamp) : Watcher κ :=
  { w with watches := w.watches.map fun x => if x.path = p then { x with stamp := stamp } else x }

/-- Forgets all watches. -/
def clear (w : Watcher κ) : Watcher κ := { w with watches := [] }

/-- The watched paths in order. -/
def paths (w : Watcher κ) : List Path := (w.watches.map (·.path)).mergeSort Path.precedes

end Watcher

/-- What a watcher needs of the program with states `σ` that owns it. -/
structure WatchOwner (ε σ κ : Type) where
  watcher : Focus σ (Watcher κ)
  /-- The present stamp of a path, if it leads to an entry. -/
  stamp : Path → Operation ε σ (Option FileStamp)
  /-- Writes a record to the log. -/
  report : LogRecord → Operation ε σ Unit
  /-- Runs a callback for a changed path. -/
  call : κ → Path → Operation ε σ Unit

namespace WatchOwner

variable (owner : WatchOwner ε σ κ)

/-- Registers a callback for a path; the first one records the present stamp. -/
def watch (p : Path) (callback : κ) : Operation ε σ Unit := do
  match (← owner.watcher.read).find? p with
  | some _ => owner.watcher.change (·.addCallback p callback)
  | none =>
    let stamp ← owner.stamp p
    owner.watcher.change (·.begin p stamp callback)

/-- The record of a change. -/
def changeRecord (p : Path) : LogRecord := ⟨.debug, "session.watch", "File changed: " ++ p.text⟩

/-- The watch as it is now, if it is still the one that was begun then. -/
def live? (w : Watcher κ) (x : Watch κ) : Option (Watch κ) :=
  (w.find? x.path).filter (·.registration == x.registration)

/-- Goes through watches in turn: the paths whose stamps differ from the ones given are recorded,
reported and passed to their callbacks. -/
def pollEach : List (Watch κ) → Operation ε σ (List Path)
  | [] => return []
  | x :: rest => do
    let stamp ← owner.stamp x.path
    if stamp = x.stamp then pollEach rest
    else
      match live? (← owner.watcher.read) x with
      | none => pollEach rest
      | some now =>
        owner.watcher.change (·.record x.path stamp)
        owner.report (changeRecord x.path)
        now.callbacks.forM fun callback => owner.call callback x.path
        return x.path :: (← pollEach rest)

/-- Runs the callbacks of every path that has changed since the last poll; the changed paths. -/
def poll : Operation ε σ (List Path) := do pollEach owner (← owner.watcher.read).watches

end WatchOwner

end MessageLens
