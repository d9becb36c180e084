import MessageLens.Command.Arguments
import MessageLens.Command.Report
import MessageLens.Options.File
import MessageLens.Source.Discovery

/-!
# Running a command

A command opens the source files at its path in an editor of its own, previews them in a session,
and reports. What keeps it from that is told to the user together with an exit code, or, where no
words are foreseen, ends the run as a failure.
-/

namespace MessageLens
set_option autoImplicit false

/-- What a user is told instead of a report. -/
inductive Complaint where
  | noSuchPath (p : Path)
  | options (message : String)
  | noProject (p : Path)
  | unknownLocale (locale : Slot String)
  | unsupported (p : Path)
  | noReference (line column : Int)
  deriving DecidableEq, Repr

/-- How a locale that was asked for is shown. -/
def localeText : Slot String → String
  | .filled locale => locale
  | .leftOpen => "[]"

namespace Complaint

/-- The words of a complaint. -/
def text : Complaint → String
  | noSuchPath p => "error: no such file or directory: " ++ p.text ++ "\n"
  | options message => "error: " ++ message ++ "\n"
  | noProject p => "error: No inlang project found for " ++ p.text ++ "\n"
  | unknownLocale locale => "error: Unknown locale: " ++ localeText locale ++ "\n"
  | unsupported p => "error: unsupported file type: " ++ p.text ++ "\n"
  | noReference line column =>
    "No message reference at " ++ toString line ++ ":" ++ toString column ++ "\n"

/-- The exit code that goes with a complaint. -/
def code : Complaint → Nat
  | noReference _ _ => 1
  | _ => 2

end Complaint

/-- Why a run fails without words. -/
inductive CommandFailure where
  | file (e : FileError)
  | path (e : Workspace.ResolveError)
  | options (e : OptionsError)
  | discovery (e : DiscoveryError)
  | session (e : SessionFailure)
  /-- A value that is needed was left open. -/
  | openValue
  deriving DecidableEq, Repr

/-- The part of a run that a failure lies in. -/
def CommandFailure.text : CommandFailure → String
  | file e => "failure: file: " ++ e.name ++ "\n"
  | path _ => "failure: path\n"
  | options _ => "failure: options\n"
  | discovery _ => "failure: source files\n"
  | session _ => "failure: session\n"
  | openValue => "failure: a value is left open\n"

/-- How a run ends early. -/
inductive CommandStop where
  | told (c : Complaint)
  | failed (e : CommandFailure)
  deriving DecidableEq, Repr

/-- The session of a command. Commands set no timers, so any clock will do. -/
abbrev CommandSession := Session Int

/-- A part of a run. -/
abbrev CommandOperation (α : Type) := Operation CommandStop CommandSession α

/-- What a command has to say, and the buffers it previews. -/
structure CommandReport where
  code : Nat := 0
  output : String := ""
  buffers : List Handle := []
  deriving DecidableEq, Repr, Inhabited

namespace Command

variable {α ε : Type}

/-- Performs an operation of the session. -/
def onSession (operation : SessionOperation Int α) : CommandOperation α := fun s =>
  match operation s with
  | .ok a s => .ok a s
  | .error e s => .error (.failed (.session e)) s

/-- Runs a computation that may fail. -/
def attempt (cause : ε → CommandFailure) : Except ε α → CommandOperation α
  | .ok a => return a
  | .error e => throw (.failed (cause e))

/-- Ends the run with a complaint. -/
def complain (c : Complaint) : CommandOperation α := throw (.told c)

/-- The path that an argument means. -/
def absolutePath (argument : String) : CommandOperation Path := do
  attempt .path ((← get).workspace.absolute (Path.parse argument))

/-- The options of a file that the user names, or else of the project around a path. -/
def optionsFor (p : Path) (config : Option (Slot String)) : CommandOperation PreviewOptions := do
  let w := (← get).workspace
  let loaded ← match config with
    | some .leftOpen => throw (.failed .openValue)
    | some (.filled argument) => pure (loadOptionsFile w (← absolutePath argument))
    | none =>
      let base := if ← attempt .file (w.isDirectory p) then p else p.parent
      let root ← attempt .path (findProjectRoot w p)
      pure (loadOptions w (root.getD base))
  match loaded with
  | .ok options => return options
  | .error e =>
    match e.message? with
    | some message => complain (.options message)
    | none => throw (.failed (.options e))

/-- The source files that a path stands for. -/
def filesAt (p : Path) : CommandOperation (List Path) := do
  let w := (← get).workspace
  if ← attempt .file (w.isDirectory p) then attempt .discovery (sourceFiles w p) else return [p]

/-- Opens files; the buffers of those that are source files. -/
def attachFiles : List Path → CommandOperation (List Handle)
  | [] => return []
  | p :: rest => do
    let id ← onSession (Session.openBuffer p.text none)
    let isSource ← onSession (Session.attach id)
    let ids ← attachFiles rest
    return if isSource then id :: ids else ids

/-- Displays the locale that was asked for; whether the project has it. -/
def selectLocale : Slot String → CommandOperation Bool
  | .filled locale => onSession (Session.selectLocale locale)
  | .leftOpen => onSession (Session.refuseLocale (localeText .leftOpen))

/-- Begins the previews of the files at a path. -/
def openPreviews (a : Arguments) (p : Path) : CommandOperation (List Handle) := do
  let options ← optionsFor p a.config
  modify fun s => { s with options := options, enabled := options.enabled }
  let ids ← attachFiles (← filesAt p)
  if !(← get).project.isDetected then complain (.noProject p)
  match a.locale with
  | none => return ids
  | some locale =>
    if ← selectLocale locale then return ids
    else complain (.unknownLocale locale)

/-- What is drawn in buffers, as lines. -/
def annotationText (s : CommandSession) (ids : List Handle) : String :=
  String.join ((s.annotationRows ids).map (·.lineText))

/-- Moves the cursor of the first buffer to a position and shows the panel there. -/
def hoverAt (p : Path) (line column : Slot Int) (ids : List Handle) :
    CommandOperation CommandReport := do
  match ids with
  | [] => complain (.unsupported p)
  | id :: _ =>
    match line, column with
    | .filled line, .filled column =>
      onSession (Session.changeBuffer id fun b => { b with cursor := (line - 1, column - 1) })
      let shown ← onSession (Session.showHover id)
      match shown, (← get).host.panel with
      | true, some panel => return { output := String.join (panel.lines.map (· ++ "\n")) }
      | _, _ => complain (.noReference line column)
    | _, _ => throw (.failed .openValue)

/-- What a command reports first; all but one command end with that. -/
def report (a : Arguments) : CommandOperation CommandReport := do
  let p ← absolutePath a.path
  if !(← attempt .file ((← get).workspace.existsAt p)) then complain (.noSuchPath p)
  let ids ← openPreviews a p
  let s ← get
  match a.command with
  | .annotate =>
    return { output := if a.json then AnnotationRow.document (s.annotationRows ids)
      else annotationText s ids }
  | .hover => hoverAt p a.line a.column ids
  | .check =>
    let rows := s.missingRows ids
    return { code := if rows.isEmpty then 0 else 1, output := String.join (rows.map (·.lineText)) }
  | .watch => return { output := annotationText s ids, buffers := ids }

/-- The most polls of a command that watches, if there is a limit. Unless nothing is polled for, the
time between polls must be known. -/
def pollLimit (a : Arguments) : CommandOperation (Option Nat) := do
  let limit ← match a.maxPolls with
    | none => pure none
    | some (.filled n) => pure (some n.toNat)
    | some .leftOpen => throw (.failed .openValue)
  if limit ≠ some 0 ∧ a.interval = .leftOpen then throw (.failed .openValue)
  return limit

/-- Polls once; what to write if something has changed. -/
def pollOnce (ids : List Handle) : CommandOperation String := do
  let changed ← onSession Session.poll
  let s ← get
  return if changed.isEmpty then "" else "--\n" ++ annotationText s ids

/-- What happens while a command waits between two polls. -/
inductive Pause where
  /-- The time is over; this is what the files are now. -/
  | over (w : Workspace)
  | interrupted
  /-- The files cannot be looked at. -/
  | failed (e : FileError)
  deriving DecidableEq, Repr

/-- Polls after every pause until the limit is reached or a pause is interrupted: the number of
pauses begun, and what to write. The end of the list is that of the run. -/
def watchLoop (ids : List Handle) : (limit : Option Nat) → List Pause →
    CommandOperation (Nat × String)
  | some 0, _ => return (0, "")
  | _, [] => return (0, "")
  | _, .interrupted :: _ => return (1, "")
  | _, .failed e :: _ => throw (.failed (.file e))
  | limit, .over w :: rest => do
    modify fun s => { s with workspace := w }
    let text ← pollOnce ids
    let (n, more) ← watchLoop ids (limit.map (· - 1)) rest
    return (n + 1, text ++ more)

/-- A whole run: the report, and for a command that watches what follows it. -/
def run (a : Arguments) (pauses : List Pause) : CommandOperation (CommandReport × Nat) := do
  let r ← report a
  if a.command = .watch then
    let (n, text) ← watchLoop r.buffers (← pollLimit a) pauses
    onSession Session.close
    return ({ r with output := r.output ++ text }, n)
  else return (r, 0)

/-- The session that a command begins with. -/
def initialSession (w : Workspace) : CommandSession :=
  { timers := { scheduler := { now := 0 } }, workspace := w }

/-- What a run leaves behind. -/
structure Outcome where
  code : Nat
  output : String
  errors : String
  /-- How many pauses have begun. -/
  pauses : Nat := 0
  deriving DecidableEq, Repr, Inhabited

/-- The records of a session that a user sees, in order, as text. -/
def logText (a : Arguments) (s : CommandSession) : String := recordsText a.verbose s.events.reverse

/-- The outcome of a run on a workspace. -/
def execute (w : Workspace) (a : Arguments) (pauses : List Pause) : Except CommandFailure Outcome :=
  match run a pauses (initialSession w) with
  | .ok (r, n) s => .ok ⟨r.code, r.output, logText a s, n⟩
  | .error (.told c) s => .ok ⟨c.code, "", logText a s ++ c.text, 0⟩
  | .error (.failed e) _ => .error e

end Command

end MessageLens
