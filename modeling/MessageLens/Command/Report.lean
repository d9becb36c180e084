import MessageLens.Json.Indented
import MessageLens.Session.Step

/-!
# What commands report

The annotations and the missing messages of the buffers of a session, as rows of data and as lines
of text. Lines and columns count from one, as an editor shows them; the column of an annotation is
the place right after its reference, counted from zero.
-/

namespace MessageLens
set_option autoImplicit false

/-- A path as a user in a directory sees it: relative if it is below the directory. -/
def displayPath (directory : RealPath) (p : Path) : String :=
  if p.anchor = .root ∧ directory.isPrefixOf p.parts then
    (Path.mk .relative (p.parts.drop directory.length)).text
  else p.text

/-- An annotation drawn in a file. -/
structure AnnotationRow where
  path : String
  line : Int
  column : Int
  key : String
  status : Status
  text : String
  missing : List String
  deriving DecidableEq, Repr

namespace AnnotationRow

/-- The row of an annotation. -/
def ofAnnotated (path : String) (a : Annotation) : AnnotationRow :=
  ⟨path, a.line + 1, a.column, a.key, a.status, a.text, a.missing⟩

/-- A row as a line of text. -/
def lineText (r : AnnotationRow) : String :=
  r.path ++ ":" ++ toString r.line ++ ": " ++ r.key ++ r.text ++ "\n"

/-- A row as a JSON object. -/
def json (r : AnnotationRow) : Json :=
  .obj [("path", .str r.path), ("line", .int r.line), ("column", .int r.column),
    ("key", .str r.key), ("status", .str r.status.name), ("text", .str r.text),
    ("missing_locales", .arr (r.missing.map .str))]

/-- Rows as a JSON document. -/
def document (rows : List AnnotationRow) : String := (Json.arr (rows.map json)).indented ++ "\n"

end AnnotationRow

/-- A reference whose key some locales lack. -/
structure MissingRow where
  path : String
  line : Int
  column : Int
  key : String
  missing : List String
  deriving DecidableEq, Repr

namespace MissingRow

/-- A row as a line of text. -/
def lineText (r : MissingRow) : String :=
  r.path ++ ":" ++ toString r.line ++ ":" ++ toString r.column ++ ": " ++ r.key ++
    " missing in " ++ ", ".intercalate r.missing ++ "\n"

end MissingRow

namespace Session

variable {τ : Type}

/-- The open buffers of a list, with their paths as a user in the working directory sees them. -/
def displayed (s : Session τ) (ids : List Handle) : List (String × Buffer) :=
  ids.filterMap fun id =>
    (s.host.buffers.get? id).map fun b => (displayPath s.workspace.current (Path.parse b.path), b)

/-- What is drawn in buffers. -/
def annotationRows (s : Session τ) (ids : List Handle) : List AnnotationRow :=
  (s.displayed ids).flatMap fun d => (d.2.drawn s.layer).map (AnnotationRow.ofAnnotated d.1)

/-- The references in a buffer whose keys some locale of the project lacks. -/
def missingRowsOf (s : Session τ) (path : String) (b : Buffer) : List MissingRow :=
  (findReferences s.options.receiver b.text).filterMap fun r =>
    let missing := missingLocales r.key s.project.messages s.project.locales
    if missing.isEmpty then none else some ⟨path, r.line + 1, r.colStart + 1, r.key, missing⟩

/-- The references in buffers whose keys some locale of the project lacks. -/
def missingRows (s : Session τ) (ids : List Handle) : List MissingRow :=
  (s.displayed ids).flatMap fun d => s.missingRowsOf d.1 d.2

end Session

namespace LogRecord

/-- A record as a line of text. -/
def lineText (r : LogRecord) : String :=
  r.level.name ++ " " ++ r.source ++ ": " ++ r.message ++ "\n"

/-- Whether a user sees a record: warnings and errors, and everything on demand. -/
def isShown (verbose : Bool) (r : LogRecord) : Bool :=
  verbose || LogLevel.warning.severity ≤ r.level.severity

end LogRecord

/-- The records among events that a user sees, as text. -/
def recordsText (verbose : Bool) (events : List SessionEvent) : String :=
  String.join (events.filterMap fun
    | .logged r => if r.isShown verbose then some r.lineText else none
    | _ => none)

end MessageLens
