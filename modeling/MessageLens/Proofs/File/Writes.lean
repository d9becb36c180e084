import MessageLens.Message.Load
import MessageLens.Project.Settings

/-!
# How often files have been written

The number of writes stands for the time: it stamps the next file that is written. Nothing that is
read from files depends on it.
-/

namespace MessageLens
set_option autoImplicit false

/-- The same files after another number of writes. -/
def Workspace.written (w : Workspace) (n : Nat) : Workspace := { w with writes := n }

variable (w : Workspace) (n : Nat)

namespace Workspace

theorem node_written (p : Path) (follow : Bool) :
    (w.written n).node p follow = w.node p follow := by
  unfold written node locate
  rfl

theorem isFile_written : (w.written n).isFile = w.isFile := by
  funext p
  unfold isFile test
  rw [node_written]

theorem read_written : (w.written n).read = w.read := by
  funext p
  unfold read
  rw [node_written]

theorem stamp?_written : (w.written n).stamp? = w.stamp? := by
  funext p
  unfold stamp? stamp
  rw [node_written]

end Workspace

theorem loadMessages_written : loadMessages (w.written n) = loadMessages w := by
  funext root pattern locale
  unfold loadMessages readMessageFile
  rw [Workspace.read_written]

theorem probePatterns_written (root : Path) (locale : String) (patterns : List String) :
    probePatterns (w.written n) root locale patterns = probePatterns w root locale patterns := by
  induction patterns with
  | nil => rfl
  | cons pattern rest ih => rw [probePatterns, probePatterns, Workspace.isFile_written, ih]

theorem loadSettings_written (root : Path) (marker : String) :
    loadSettings (w.written n) root marker = loadSettings w root marker := by
  unfold loadSettings settingsOfContent choosePattern
  simp only [Workspace.read_written, probePatterns_written]

end MessageLens
