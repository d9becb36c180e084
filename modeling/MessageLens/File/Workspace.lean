import MessageLens.File.Disk

/-!
# The workspace

A program sees the disk from its working directory and knows the home directories of its users. The
tests for files answer `false` where a path leads nowhere, and fail where the operating system
refuses the path as such.
-/

namespace MessageLens
set_option autoImplicit false

/-- The surroundings that paths are read in. -/
structure Workspace where
  disk : Disk := {}
  /-- The working directory. -/
  current : RealPath := []
  /-- The home directory. -/
  home : Path := ⟨.root, []⟩
  /-- The home directories of users by name. -/
  homes : List (String × Path) := []
  /-- How often a file has been written, which serves as the time of a write. -/
  writes : Nat := 0
  deriving DecidableEq, Repr, Inhabited

/-- What a watcher remembers of a file: when it was changed, and its size. -/
structure FileStamp where
  modified : Int
  size : Nat
  deriving DecidableEq, Repr, Inhabited

namespace Workspace

/-- The real path that a path leads to. -/
def locate (w : Workspace) (p : Path) (follow : Bool := true) : Except FileError RealPath :=
  if p.parts.any (·.toList.contains '\x00') then .error .embeddedNul
  else if Disk.maxPathBytes < p.text.utf8ByteSize then .error .nameTooLong
  else w.disk.lookup follow Disk.maxLinks (if p.anchor = .relative then w.current else []) p.parts

/-- The entry that a path leads to. -/
def node (w : Workspace) (p : Path) (follow : Bool := true) : Except FileError Node := do
  match w.disk.node? (← w.locate p follow) with
  | some node => return node
  | none => throw .missing

/-- Whether a lookup that failed merely found nothing. -/
def isAbsence : FileError → Bool
  | .nameTooLong => false
  | .isADirectory => false
  | _ => true

/-- Tests the entry that a path leads to; a path that leads nowhere fails the test. -/
def test (w : Workspace) (p : Path) (property : Node → Bool) (follow : Bool := true) :
    Except FileError Bool :=
  match w.node p follow with
  | .ok node => .ok (property node)
  | .error e => if isAbsence e then .ok false else .error e

/-- Whether a path leads to an entry. -/
def existsAt (w : Workspace) (p : Path) : Except FileError Bool := w.test p fun _ => true

/-- Whether a path leads to a file. -/
def isFile (w : Workspace) (p : Path) : Except FileError Bool :=
  w.test p fun
    | .file _ _ => true
    | _ => false

/-- Whether a path leads to a directory. -/
def isDirectory (w : Workspace) (p : Path) : Except FileError Bool :=
  w.test p fun
    | .directory _ => true
    | _ => false

/-- Whether a path is a link itself. -/
def isLink (w : Workspace) (p : Path) : Except FileError Bool :=
  w.test p (fun
    | .link _ => true
    | _ => false) false

/-- The content of a file. -/
def read (w : Workspace) (p : Path) : Except FileError Bytes := do
  match ← w.node p with
  | .file content _ => return content
  | .directory _ => throw .isADirectory
  | .link _ => throw .linkLoop

/-- Whether a path leads to a file that can be read. -/
def isReadableFile (w : Workspace) (p : Path) : Except FileError Bool := do
  return (← w.isFile p) && (w.read p).toOption.isSome

/-- The size that a directory reports. -/
def directorySize : Nat := 4096

/-- What a watcher remembers of the entry that a path leads to. -/
def stamp (w : Workspace) (p : Path) : Except FileError FileStamp := do
  match ← w.node p with
  | .file content modified => return ⟨modified, content.length⟩
  | .directory changes => return ⟨changes, directorySize⟩
  | .link target => return ⟨0, target.text.utf8ByteSize⟩

/-- What a watcher remembers of the entry that a path leads to, if it leads to one. -/
def stamp? (w : Workspace) (p : Path) : Except FileError (Option FileStamp) :=
  match w.stamp p with
  | .ok stamp => .ok (some stamp)
  | .error e => if e.isReported then .ok none else .error e

/-- Why a path cannot be made absolute. -/
inductive ResolveError where
  | file (e : FileError)
  /-- The path leads through a link that leads back to itself. -/
  | endless
  | unknownUser (name : String)
  deriving DecidableEq, Repr, Inhabited

/-- The path with every link followed and without double dots. From a link that leads back to itself
on, links are not followed any more; that is an error only if the path still leads through one. -/
def resolve (w : Workspace) (p : Path) : Except ResolveError Path := do
  match ← (w.disk.resolve w.current p).mapError .file with
  | .reached real => return ⟨.root, real⟩
  | .looped link rest =>
    let q : Path := ⟨.root, Path.collapse (link ++ rest)⟩
    match w.node q with
    | .error .linkLoop => throw .endless
    | .error .embeddedNul => throw (.file .embeddedNul)
    | _ => return q

/-- The path with a tilde at its front replaced by a home directory. -/
def expandHome (w : Workspace) (p : Path) : Except ResolveError Path :=
  match p.anchor, p.parts with
  | .relative, first :: rest =>
    match first.toList with
    | '~' :: user =>
      if user.isEmpty then .ok (w.home.join ⟨.relative, rest⟩)
      else match w.homes.lookup (String.ofList user) with
        | some home => .ok (home.join ⟨.relative, rest⟩)
        | none => .error (.unknownUser (String.ofList user))
    | _ => .ok p
  | _, _ => .ok p

/-- The path as a user means it: the tilde expanded, then resolved. -/
def absolute (w : Workspace) (p : Path) : Except ResolveError Path := do
  w.resolve (← w.expandHome p)

end Workspace

end MessageLens
