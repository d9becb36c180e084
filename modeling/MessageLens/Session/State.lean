import MessageLens.Editor.Host
import MessageLens.Message.Load
import MessageLens.Project.Root
import MessageLens.Project.Settings
import MessageLens.Timer.Debouncer
import MessageLens.Watch.Watcher

/-!
# Sessions

A session keeps the previews of the attached buffers of an editor. It knows the project it has found
with the messages of its locales, and it owns timers for edits that are not yet shown and watches on
the files of the project. Its operations run on the whole of it, together with the editor and the
disk, and leave a trace of events.
-/

namespace MessageLens
set_option autoImplicit false

/-- The namespace that a session draws in unless it is given another. -/
def defaultLayer : String := "lazy_watson"

/-- What a session knows of its project. Messages are kept for every locale loaded. -/
structure ProjectState where
  root : Option Path := none
  settings : Option ProjectSettings := none
  locale : Option String := none
  messages : Catalog := ∅
  deriving DecidableEq, Repr, Inhabited

namespace ProjectState

/-- Whether there is a project with usable settings. -/
def isDetected (p : ProjectState) : Bool := p.root.isSome && p.settings.isSome

/-- The locales of the project. -/
def locales (p : ProjectState) : List String := (p.settings.map (·.locales)).getD []

/-- The messages of the displayed locale; the empty name stands for no locale. -/
def currentMessages (p : ProjectState) : MessageTable :=
  match p.locale with
  | none => ∅
  | some locale => if locale = "" then ∅ else p.messages.messages locale

end ProjectState

/-- What a timer of a session does. -/
inductive SessionTask where
  /-- Draws the annotations of a buffer anew. -/
  | update (id : Handle)
  /-- Opens the panel for the key under the cursor of a buffer. -/
  | hover (id : Handle)
  deriving DecidableEq, Repr, Inhabited

/-- What a watch of a session does. -/
inductive SessionCallback where
  | settings
  | messages (locale : String)
  deriving DecidableEq, Repr, Inhabited

/-- What a session lets its surroundings see while it works. -/
inductive SessionEvent where
  | logged (r : LogRecord)
  /-- The namespace of the session has been emptied in a buffer. -/
  | cleared (id : Handle)
  | panelOpened (id : Handle)
  | panelClosed
  deriving DecidableEq, Repr, Inhabited

/-- Why an operation of a session fails. -/
inductive SessionFailure where
  | unknownBuffer (id : Handle)
  | file (e : FileError)
  | path (e : Workspace.ResolveError)
  | messages (e : LoadError)
  /-- The messages of a locale are asked for without a project. -/
  | noProject
  /-- An annotation names a line before the first. -/
  | noSuchLine
  /-- A delay is longer than the clock can express. -/
  | delayTooLong
  deriving DecidableEq, Repr

/-- A session on an editor and a disk; `τ` are the points of its time. -/
structure Session (τ : Type) where
  options : PreviewOptions := {}
  /-- The namespace that the session draws in. -/
  layer : String := defaultLayer
  enabled : Bool := options.enabled
  project : ProjectState := {}
  /-- The attached buffers in order of attachment. -/
  attached : List Handle := []
  timers : Debouncer τ Handle SessionTask
  watcher : Watcher SessionCallback := {}
  host : Host := {}
  workspace : Workspace := {}
  /-- What has happened, last first. -/
  events : List SessionEvent := []
  deriving Inhabited

/-- An operation on a session. -/
abbrev SessionOperation (τ α : Type) := Operation SessionFailure (Session τ) α

namespace Session

variable {τ α : Type}

/-- The place of the timers. -/
def timersPart : Focus (Session τ) (Debouncer τ Handle SessionTask) where
  get := timers
  put s x := { s with timers := x }

/-- The place of the watcher. -/
def watcherPart : Focus (Session τ) (Watcher SessionCallback) where
  get := watcher
  put s x := { s with watcher := x }

/-- The place of the editor. -/
def hostPart : Focus (Session τ) Host where
  get := host
  put s x := { s with host := x }

/-- The place of the project. -/
def projectPart : Focus (Session τ) ProjectState where
  get := project
  put s x := { s with project := x }

/-- Notes an event. -/
def emit (e : SessionEvent) : SessionOperation τ Unit :=
  modify fun s => { s with events := e :: s.events }

/-- Writes a record about sessions to the log. -/
def log (level : LogLevel) (message : String) : SessionOperation τ Unit :=
  emit (.logged ⟨level, "session.preview", message⟩)

/-- Runs a computation that may fail. -/
def attempt {ε : Type} (cause : ε → SessionFailure) : Except ε α → SessionOperation τ α
  | .ok a => return a
  | .error e => throw (cause e)

/-- A buffer that must be open. -/
def buffer (id : Handle) : SessionOperation τ Buffer := do
  match (← hostPart.read).buffers.get? id with
  | some b => return b
  | none => throw (.unknownBuffer id)

end Session

end MessageLens
