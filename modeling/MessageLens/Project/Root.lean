import MessageLens.File.Workspace
import MessageLens.Options.Basic

/-!
# Finding the project

A project is a directory that holds the marker file as a file that can be read. It is looked for
from the place of a source file upwards.
-/

namespace MessageLens
set_option autoImplicit false

/-- The first of the directories that holds a marker that can be read. -/
def firstMarked (w : Workspace) (marker : Path) : List Path → Except FileError (Option Path)
  | [] => .ok none
  | directory :: rest => do
    if ← w.isReadableFile (directory.join marker) then return some directory
    else firstMarked w marker rest

/-- A directory and the directories above it, up to the root; `names` leads from the root to it. -/
def withAncestors (names : List String) : List Path :=
  ((List.range (names.length + 1)).map fun n => Path.mk .root (names.take n)).reverse

/-- The nearest directory at or above a path that holds a marker that can be read. -/
def findProjectRoot (w : Workspace) (start : Path) (marker : String := defaultMarker) :
    Except Workspace.ResolveError (Option Path) := do
  let p ← w.absolute start
  let directory := if ← (w.isDirectory p).mapError .file then p else p.parent
  (firstMarked w (Path.parse marker) (withAncestors directory.parts)).mapError .file

end MessageLens
