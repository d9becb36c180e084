import MessageLens.File.Change
import MessageLens.Session.Timing

/-!
# Runs of a session

A run is a list of steps: what the user does in the editor, what is asked of the session, the
passing of time, and changes of files.
-/

namespace MessageLens
set_option autoImplicit false

/-- A step of a run. -/
inductive SessionStep where
  /-- Opens a buffer; without a text that of the file is read. -/
  | openBuffer (path : String) (text : Option String)
  | closeBuffer (id : Handle)
  | setText (id : Handle) (text : String)
  | setCursor (id : Handle) (line column : Int)
  | attach (id : Handle)
  | detach (id : Handle)
  | textChanged (id : Handle)
  | showHover (id : Handle)
  | closeHover
  | cursorHold (id : Handle)
  | cursorMoved (id : Handle)
  | updateBuffer (id : Handle)
  | updateAll
  | enable
  | disable
  | toggle
  | refresh
  | selectLocale (locale : String)
  | loadAllLocales
  | messageFileChanged (locale : String)
  | settingsChanged
  | close
  | advance (ms : Int)
  | runDue
  | poll
  | change (c : FileChange)
  deriving DecidableEq, Repr, Inhabited

/-- What a step answers. -/
inductive SessionAnswer where
  | nothing
  | flag (b : Bool)
  | count (n : Nat)
  | buffer (id : Handle)
  | paths (ps : List Path)
  deriving DecidableEq, Repr, Inhabited

namespace Session

variable {τ : Type}

/-- Opens a buffer in the editor. -/
def openBuffer (path : String) (text : Option String) : SessionOperation τ Handle := do
  let s ← get
  let (id, host) ← match text with
    | some text => pure (s.host.openBuffer path text)
    | none => attempt .file (s.host.openFile s.workspace path)
  hostPart.change fun _ => host
  return id

/-- Changes a buffer that must be open. -/
def changeBuffer (id : Handle) (f : Buffer → Buffer) : SessionOperation τ Unit := do
  match (← hostPart.read).updateBuffer? id f with
  | some host => hostPart.change fun _ => host
  | none => throw (.unknownBuffer id)

/-- Changes the files that the session sees. -/
def changeFiles (c : FileChange) : SessionOperation τ Unit := do
  let workspace ← attempt .file ((← get).workspace.apply c)
  modify fun s => { s with workspace := workspace }

variable [Instant τ]

/-- Performs a step. -/
def perform : SessionStep → SessionOperation τ SessionAnswer
  | .openBuffer path text => return .buffer (← openBuffer path text)
  | .closeBuffer id => do hostPart.change (·.closeBuffer id); return .nothing
  | .setText id text => do changeBuffer id fun b => { b with text := text }; return .nothing
  | .setCursor id line column => do
    changeBuffer id fun b => { b with cursor := (line, column) }
    return .nothing
  | .attach id => return .flag (← attach id)
  | .detach id => do detach id; return .nothing
  | .textChanged id => do onTextChanged id; return .nothing
  | .showHover id => return .flag (← showHover id)
  | .closeHover => do closeHover; return .nothing
  | .cursorHold id => do onCursorHold id; return .nothing
  | .cursorMoved _ => do closeHover; return .nothing
  | .updateBuffer id => do updateBuffer id; return .nothing
  | .updateAll => do updateAll; return .nothing
  | .enable => do enable; return .nothing
  | .disable => do disable; return .nothing
  | .toggle => return .flag (← toggle)
  | .refresh => do refresh; return .nothing
  | .selectLocale locale => return .flag (← selectLocale locale)
  | .loadAllLocales => do loadAllLocales; return .nothing
  | .messageFileChanged locale => do onMessageFileChanged locale; return .nothing
  | .settingsChanged => do onSettingsChanged; return .nothing
  | .close => do close; return .nothing
  | .advance ms => do timersPart.change (·.advance ms); return .nothing
  | .runDue => return .count (← runDue)
  | .poll => return .paths (← poll)
  | .change c => do changeFiles c; return .nothing

/-- The state that a list of steps leads to; a step that fails keeps what it has done so far. -/
def runSteps (s : Session τ) : List SessionStep → Session τ
  | [] => s
  | step :: rest =>
    match perform step s with
    | .ok _ s => runSteps s rest
    | .error _ s => runSteps s rest

end Session

end MessageLens
