import MessageLens.File.Workspace
import MessageLens.Ignore.Pattern
import MessageLens.Source.Kind
import MessageLens.Text.Lines

/-!
# Finding source files

The source files below a directory are the regular files with the suffix of one that are reached
without following a link or entering a skipped directory, and that the directory's own ignore file
does not leave out. They are listed in order of their paths relative to the directory.
-/

namespace MessageLens
set_option autoImplicit false

/-- Directories in which no sources are looked for. -/
def skippedDirectories : List String := ["node_modules", ".git", ".svelte-kit", "dist", "build"]

/-- Why the source files of a directory cannot be listed. -/
inductive DiscoveryError where
  | file (e : FileError)
  | ignore (e : Ignore.PatternFault)
  deriving DecidableEq, Repr

/-- The rules of an ignore file. -/
def Ignore.rulesOfBytes (content : Bytes) : Except Ignore.PatternFault (List Ignore.Rule) :=
  match Utf8.decode? content with
  | none => .error .undecodable
  | some cs => Ignore.rulesOfLines (Text.pieces (Text.unifyLineEnds cs))

/-- The rules for a directory: those of its ignore file, unless that is absent or a link. -/
def ignoreRules (w : Workspace) (directory : Path) : Except DiscoveryError (List Ignore.Rule) := do
  let p := directory.child ".gitignore"
  if (← (w.isFile p).mapError .file) && !(← (w.isLink p).mapError .file) then
    (Ignore.rulesOfBytes (← (w.read p).mapError .file)).mapError .ignore
  else return []

/-- The names from a directory down to each entry below it. A link is an entry and leads to none. -/
def entriesBelow (disk : Disk) (directory : RealPath) : List (List String) :=
  disk.nodes.filterMap fun entry =>
    if directory.isPrefixOf entry.1 && directory.length < entry.1.length then
      some (entry.1.drop directory.length)
    else none

/-- A path that cannot be resolved leads through a link that leads back to itself, if it is accepted
at all. -/
def DiscoveryError.ofResolve : Workspace.ResolveError → DiscoveryError
  | .file e => .file e
  | .endless => .file .linkLoop
  | .unknownUser _ => .file .linkLoop

/-- Whether a path leads to the place of a directory or to one below it, all links followed. -/
def isWithin (w : Workspace) (p directory : Path) : Except DiscoveryError Bool := do
  let outer ← (w.resolve directory).mapError .ofResolve
  let inner ← (w.resolve p).mapError .ofResolve
  return outer.parts.isPrefixOf inner.parts

/-- Names as the text of a relative path. -/
def relativeText (names : List String) : String := "/".intercalate names

/-- Whether an entry below a directory is one of its source files. -/
def isListed (w : Workspace) (directory : Path) (rules : List Ignore.Rule) (names : List String) :
    Except DiscoveryError Bool := do
  let p := directory.join ⟨.relative, names⟩
  if !(← (w.isFile p).mapError .file) then return false
  else if ← (w.isLink p).mapError .file then return false
  else if !isSourcePath p then return false
  else if !(← isWithin w p directory) then return false
  else if names.dropLast.any (· ∈ skippedDirectories) then return false
  else return !(← (Ignore.ignores rules (relativeText names).toList).mapError .ignore)

/-- The entries of a list that are source files. -/
def keepListed (w : Workspace) (directory : Path) (rules : List Ignore.Rule) :
    List (List String) → Except DiscoveryError (List (List String))
  | [] => .ok []
  | names :: rest => do
    if ← isListed w directory rules names then
      return names :: (← keepListed w directory rules rest)
    else keepListed w directory rules rest

/-- Whether one relative path comes before another or is the same. -/
def precedes (a b : List String) : Bool := !decide (relativeText b < relativeText a)

/-- The source files below a directory, as paths from it, in order. -/
def sourceNames (w : Workspace) (directory : Path) :
    Except DiscoveryError (List (List String)) := do
  let rules ← ignoreRules w directory
  if ← (w.isDirectory directory).mapError .file then
    let real ← (w.locate directory).mapError .file
    return (← keepListed w directory rules (entriesBelow w.disk real)).mergeSort precedes
  else return []

/-- The source files below a directory, in order. -/
def sourceFiles (w : Workspace) (directory : Path) : Except DiscoveryError (List Path) := do
  return (← sourceNames w directory).map fun names => directory.join ⟨.relative, names⟩

end MessageLens
