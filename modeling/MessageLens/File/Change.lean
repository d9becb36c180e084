import MessageLens.File.Workspace

/-!
# Changes of files

The steps by which files come and go while a program watches them.
-/

namespace MessageLens
set_option autoImplicit false

/-- A change of a disk; times count from a moment common to all of them. -/
inductive FileChange where
  /-- Creates or replaces a file, and the directories above it. The time of the change is the number
  of the write unless it is given. -/
  | write (p : Path) (content : Bytes) (modified : Option Int)
  | touch (p : Path) (modified : Int)
  | delete (p : Path)
  | makeDirectory (p : Path)
  | removeTree (p : Path)
  deriving DecidableEq, Repr, Inhabited

namespace Workspace

/-- Creates the directories of a real path that do not exist. -/
def makeDirectories (disk : Disk) (real : RealPath) : Disk :=
  (List.range real.length).foldl (fun disk n =>
    let above := real.take (n + 1)
    if (disk.node? above).isSome then disk else disk.addNode above (.directory 0)) disk

/-- Where an entry of that path would be created. -/
def placeFor (w : Workspace) (p : Path) : Except FileError RealPath :=
  match w.locate p with
  | .ok real => .ok real
  | .error .missing =>
    match w.resolve p with
    | .ok q => .ok q.parts
    | .error _ => .error .linkLoop
  | .error e => .error e

/-- Applies a change. -/
def apply (w : Workspace) : FileChange → Except FileError Workspace
  | .write p content modified => do
    let real ← w.placeFor p
    let w := { w with writes := w.writes + 1 }
    let modified := modified.getD w.writes
    match w.disk.node? real with
    | some (.directory _) => throw .isADirectory
    | some _ => return { w with disk := w.disk.setNode real (.file content modified) }
    | none =>
      let disk := makeDirectories w.disk real.dropLast
      return { w with disk := disk.addNode real (.file content modified) }
  | .touch p modified => do
    let real ← w.locate p
    match w.disk.node? real with
    | some (.file content _) =>
      return { w with disk := w.disk.setNode real (.file content modified) }
    | some (.directory _) => return { w with disk := w.disk.noteChange real }
    | _ => return w
  | .delete p => do
    let real ← w.locate p false
    match w.disk.node? real with
    | some (.directory _) => throw .isADirectory
    | _ => return { w with disk := w.disk.removeTree real }
  | .makeDirectory p => do
    let real ← w.placeFor p
    return { w with disk := makeDirectories w.disk real }
  | .removeTree p => do
    let real ← w.locate p false
    match w.disk.node? real with
    | some (.directory _) => return { w with disk := w.disk.removeTree real }
    | some (.file _ _) => throw .notADirectory
    | _ => throw .linkLoop

/-- The change that a look at a file has shown, given the content found, if there is any. -/
def changeSeen? (w : Workspace) (p : Path) (content : Option Bytes) : Option FileChange :=
  match w.read p, content with
  | .ok known, some found => if known = found then none else some (.write p found none)
  | .error _, some found => some (.write p found none)
  | .ok _, none => some (.delete p)
  | .error _, none => none

/-- The workspace after a look at a file. -/
def observe (w : Workspace) (p : Path) (content : Option Bytes) : Workspace :=
  match w.changeSeen? p content with
  | none => w
  | some c => (w.apply c).toOption.getD w

/-- Adds a link. -/
def addLink (w : Workspace) (p target : Path) : Except FileError Workspace := do
  let real ← w.placeFor p
  let disk := makeDirectories w.disk real.dropLast
  return { w with disk := disk.addNode real (.link target) }

end Workspace

end MessageLens
