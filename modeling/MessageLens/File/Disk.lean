import MessageLens.File.Path
import MessageLens.Text.Utf8

/-!
# Files

A disk holds files, directories and symbolic links under their real paths. Paths are looked up name
by name as an operating system does: links are followed, two dots lead to the parent, one dot stays,
and a lookup fails for a cause of its own. Nobody is refused a file or a directory: a disk knows no
permissions.
-/

namespace MessageLens
set_option autoImplicit false

/-- The names from the root of the file system down to an entry, none of them a link. -/
abbrev RealPath := List String

/-- An entry of a disk. -/
inductive Node where
  /-- A file with its content and the time of its last change. -/
  | file (content : Bytes) (modified : Int)
  /-- A directory, and how often a name in it has been added or removed. -/
  | directory (changes : Nat)
  | link (target : Path)
  deriving DecidableEq, Repr, Inhabited

/-- Why a path cannot be used. -/
inductive FileError where
  | missing
  | notADirectory
  | isADirectory
  | nameTooLong
  | linkLoop
  /-- The path holds the character that ends a path for the operating system. -/
  | embeddedNul
  deriving DecidableEq, Repr, Inhabited

namespace FileError

/-- The name of a cause in log records. -/
def name : FileError → String
  | missing => "FileNotFoundError"
  | notADirectory => "NotADirectoryError"
  | isADirectory => "IsADirectoryError"
  | nameTooLong => "OSError"
  | linkLoop => "OSError"
  | embeddedNul => "ValueError"

/-- Whether the operating system reports the cause, which it does unless the path cannot even be
passed to it. -/
def isReported : FileError → Bool
  | embeddedNul => false
  | _ => true

end FileError

/-- The entries of a file system besides its root. -/
structure Disk where
  nodes : List (RealPath × Node) := []
  deriving DecidableEq, Repr, Inhabited

namespace Disk

/-- The longest name in bytes. -/
def maxNameBytes : Nat := 255

/-- The longest path in bytes. -/
def maxPathBytes : Nat := 4095

/-- How many links a lookup follows. -/
def maxLinks : Nat := 40

/-- The entry at a real path. -/
def node? (disk : Disk) (real : RealPath) : Option Node :=
  if real = [] then some (.directory 0) else disk.nodes.lookup real

/-- Where a descent through names stops. -/
inductive Stop where
  | reached (real : RealPath)
  | atLink (directory : RealPath) (target : Path) (rest : List String)
  | failed (e : FileError)

/-- Descends from a directory through names up to the first link. A link that is the last name is
followed only if `follow` says so. -/
def descend (disk : Disk) (follow : Bool) (directory : RealPath) : List String → Stop
  | [] => .reached directory
  | ".." :: rest => descend disk follow directory.dropLast rest
  | "." :: rest => descend disk follow directory rest
  | name :: rest =>
    if maxNameBytes < name.utf8ByteSize then .failed .nameTooLong
    else
      match disk.node? (directory ++ [name]) with
      | none => .failed .missing
      | some (.directory _) => descend disk follow (directory ++ [name]) rest
      | some (.file _ _) =>
        if rest.isEmpty then .reached (directory ++ [name]) else .failed .notADirectory
      | some (.link target) =>
        if rest.isEmpty && !follow then .reached (directory ++ [name])
        else .atLink directory target rest

/-- Looks up names from a directory, following at most `links` links. -/
def lookup (disk : Disk) (follow : Bool) : (links : Nat) → RealPath → List String →
    Except FileError RealPath
  | links, directory, names =>
    match disk.descend follow directory names with
    | .reached real => .ok real
    | .failed e => .error e
    | .atLink directory target rest =>
      match links with
      | 0 => .error .linkLoop
      | n + 1 =>
        let start := if target.anchor = .relative then directory else []
        lookup disk follow n start (target.parts ++ rest)

/-- Where the resolution of names ends. -/
inductive Resolution where
  /-- Every link is followed. -/
  | reached (real : RealPath)
  /-- A link leads back to itself; the names behind it are left as they are. -/
  | looped (link : RealPath) (rest : List String)
  deriving DecidableEq, Repr, Inhabited

/-- Resolves names from a directory as far as links exist; names that do not exist are kept and two
dots remove the name before them. `follow` resolves the target of a link. -/
def resolveNames (disk : Disk) (follow : RealPath → Path → Except FileError Resolution) :
    RealPath → List String → Except FileError Resolution
  | real, [] => .ok (.reached real)
  | real, ".." :: rest => resolveNames disk follow real.dropLast rest
  | real, "." :: rest => resolveNames disk follow real rest
  | real, name :: rest =>
    if name.toList.contains '\x00' then .error .embeddedNul
    else
      match disk.node? (real ++ [name]) with
      | some (.link target) => do
        match ← follow (real ++ [name]) target with
        | .reached real => resolveNames disk follow real rest
        | .looped link names => return .looped link (names ++ rest)
      | _ => resolveNames disk follow (real ++ [name]) rest

/-- Resolves a path from a directory while links are being followed, and further ones may be up to a
depth. -/
def resolveWithin (disk : Disk) : (depth : Nat) → (followed : List RealPath) → RealPath → Path →
    Except FileError Resolution
  | 0, _, directory, p =>
    disk.resolveNames (fun link _ => .ok (.looped link []))
      (if p.anchor = .relative then directory else []) p.parts
  | depth + 1, followed, directory, p =>
    disk.resolveNames
      (fun link target =>
        if link ∈ followed then .ok (.looped link [])
        else resolveWithin disk depth (link :: followed) link.dropLast target)
      (if p.anchor = .relative then directory else []) p.parts

/-- The number of links on the disk. -/
def linkCount (disk : Disk) : Nat :=
  disk.nodes.countP fun n => match n.2 with
    | .link _ => true
    | _ => false

/-- Resolves a path from a directory. Each link that is being followed is another one, so their
number bounds the depth. -/
def resolve (disk : Disk) (directory : RealPath) (p : Path) : Except FileError Resolution :=
  disk.resolveWithin disk.linkCount [] directory p

/-- Changes the node of a real path, or adds it. -/
def setNode (disk : Disk) (real : RealPath) (node : Node) : Disk :=
  if disk.nodes.any (·.1 == real) then
    ⟨disk.nodes.map fun n => if n.1 = real then (real, node) else n⟩
  else ⟨disk.nodes ++ [(real, node)]⟩

/-- Notes that a name in a directory has been added or removed. -/
def noteChange (disk : Disk) (directory : RealPath) : Disk :=
  ⟨disk.nodes.map fun n => match n with
    | (real, .directory changes) =>
      if real = directory then (real, .directory (changes + 1)) else n
    | _ => n⟩

/-- Adds a node that does not exist yet. -/
def addNode (disk : Disk) (real : RealPath) (node : Node) : Disk :=
  (disk.noteChange real.dropLast).setNode real node

/-- Removes an entry and all that is below it. -/
def removeTree (disk : Disk) (real : RealPath) : Disk :=
  (Disk.mk (disk.nodes.filter fun n => !real.isPrefixOf n.1)).noteChange real.dropLast

end Disk

end MessageLens
