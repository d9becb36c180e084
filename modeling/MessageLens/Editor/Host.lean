import MessageLens.Annotation.Render
import MessageLens.Editor.Handle
import MessageLens.File.Workspace
import MessageLens.Hover.Panel
import MessageLens.Table
import MessageLens.Text.Lines

/-!
# The editor

Buffers are held in memory, and annotations are recorded in namespaces of a buffer instead of being
drawn. As in an editor on a screen, an annotation outside the buffer, or inline past the end of its
line, is refused.
-/

namespace MessageLens
set_option autoImplicit false

/-- A text that is being edited. -/
structure Buffer where
  path : String
  text : String := ""
  /-- The line and the column of the cursor. -/
  cursor : Int × Int := (0, 0)
  annotations : Table String (List Annotation) := ∅
  deriving DecidableEq, Repr, Inhabited

/-- The buffers of an editor and its floating panel. -/
structure Host where
  buffers : Table Handle Buffer := ∅
  panel : Option HoverPanel := none
  /-- The buffer that the panel was opened for. -/
  panelBuffer : Option Handle := none
  /-- How many buffers have been opened. -/
  opened : Nat := 0
  deriving DecidableEq, Repr, Inhabited

namespace Buffer

/-- The annotations drawn in a namespace. -/
def drawn (b : Buffer) (layer : String) : List Annotation :=
  (b.annotations.get? layer).getD []

/-- The length of a line of the buffer; a negative line counts from the end. -/
def lineLength? (b : Buffer) (line : Int) : Option Nat :=
  let ls := Text.lines b.text.toList
  let index := if line < 0 then line + ls.length else line
  if index < 0 then none else (ls[index.toNat]?).map (·.length)

/-- The number of lines of the buffer. -/
def lineCount (b : Buffer) : Nat := (Text.lines b.text.toList).length

/-- Adds an annotation to a namespace. -/
def add (b : Buffer) (layer : String) (a : Annotation) : Buffer :=
  { b with annotations := b.annotations.set layer (b.drawn layer ++ [a]) }

/-- Whether an annotation can be drawn in a buffer. -/
inductive Verdict where
  | accepted
  | refused (reason : String)
  /-- The line of an inline annotation counts back beyond the first one. -/
  | noSuchLine
  deriving DecidableEq, Repr

/-- Whether an annotation can be drawn in the buffer. -/
def judge (b : Buffer) (a : Annotation) : Verdict :=
  if b.lineCount ≤ a.line then
    .refused ("Line " ++ toString a.line ++ " is outside the buffer")
  else
    match a.placement with
    | .eol => .accepted
    | .inline =>
      match b.lineLength? a.line with
      | none => .noSuchLine
      | some n =>
        if n < a.column then
          .refused ("Column " ++ toString a.column ++ " is past the end of line " ++
            toString a.line)
        else .accepted

end Buffer

namespace Host

/-- Opens a buffer under a number of its own. -/
def openBuffer (h : Host) (path text : String) : Handle × Host :=
  let id := .number (h.opened + 1)
  (id, { h with
    opened := h.opened + 1
    buffers := h.buffers.set id { path := path, text := text } })

/-- The text of a file as a buffer holds it: ill-formed bytes are replaced, and every kind of line
end is a line feed. -/
def textOfFile (content : Bytes) : String :=
  String.ofList (Text.unifyLineEnds (Utf8.decodeLossy content))

/-- Opens a buffer with the text of a file. -/
def openFile (h : Host) (w : Workspace) (path : String) : Except FileError (Handle × Host) := do
  return h.openBuffer path (textOfFile (← w.read (Path.parse path)))

/-- Closes a buffer, if it is open. -/
def closeBuffer (h : Host) (id : Handle) : Host := { h with buffers := h.buffers.erase id }

/-- Whether a buffer is open. -/
def isValid (h : Host) (id : Handle) : Bool := h.buffers.contains id

/-- Changes a buffer that is open. -/
def updateBuffer? (h : Host) (id : Handle) (f : Buffer → Buffer) : Option Host :=
  (h.buffers.get? id).map fun b => { h with buffers := h.buffers.set id (f b) }

/-- Removes what is drawn in a namespace of a buffer. -/
def clearLayer (h : Host) (id : Handle) (layer : String) : Host :=
  (h.updateBuffer? id fun b => { b with annotations := b.annotations.erase layer }).getD h

/-- Draws an annotation in a namespace of a buffer. -/
def place (h : Host) (id : Handle) (layer : String) (a : Annotation) : Drawing Host :=
  match h.buffers.get? id with
  | none => .refused h ("Unknown buffer " ++ id.text)
  | some b =>
    match b.judge a with
    | .accepted => .drawn { h with buffers := h.buffers.set id (b.add layer a) }
    | .refused reason => .refused h reason
    | .noSuchLine => .failed h

/-- A namespace of a buffer as a surface for annotations. -/
def surface (id : Handle) (layer : String) : Surface Host where
  clear h := h.clearLayer id layer
  place h a := h.place id layer a

/-- Opens the panel for a buffer. -/
def openPanel (h : Host) (id : Handle) (panel : HoverPanel) : Host :=
  { h with panel := some panel, panelBuffer := some id }

/-- Closes the panel. -/
def closePanel (h : Host) : Host := { h with panel := none, panelBuffer := none }

end Host

end MessageLens
