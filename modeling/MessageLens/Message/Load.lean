import MessageLens.File.Workspace
import MessageLens.Journal
import MessageLens.Json.Parser
import MessageLens.Message.Flatten
import MessageLens.Project.Layout

/-!
# Loading messages

The messages of a locale are read from its message file. A file that is missing or malformed is
reported and counts as one without messages.
-/

namespace MessageLens
set_option autoImplicit false

/-- Why the messages of a locale cannot be loaded at all. -/
inductive LoadError where
  | file (e : FileError)
  | pattern (e : PatternError)
  deriving DecidableEq, Repr

/-- A record about message files. -/
def messageRecord (level : LogLevel) (message : String) : LogRecord :=
  ⟨level, "messages.loader", message⟩

/-- The document in a message file, or the record that says why there is none. -/
def readMessageFile (w : Workspace) (file : Path) : Except FileError (Except LogRecord Json) :=
  match w.read file with
  | .ok content =>
    match Json.ofBytes? content with
    | some document => .ok (.ok document)
    | none =>
      .ok (.error (messageRecord .error
        ("Failed to parse messages " ++ file.text ++ ": <JSONDecodeError>")))
  | .error e =>
    if e.isReported then
      .ok (.error (messageRecord .debug
        ("Message file not readable " ++ file.text ++ ": <" ++ e.name ++ ">")))
    else .error e

/-- The messages of a locale and the records of loading them. -/
def loadMessages (w : Workspace) (root : Path) (pattern locale : String) :
    Except LoadError (MessageTable × List LogRecord) := do
  match ← (readMessageFile w (messagePath root pattern locale)).mapError .file with
  | .ok document => return (← (flatten document).mapError .pattern, [])
  | .error record => return (∅, [record])

end MessageLens
