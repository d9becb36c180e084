import MessageLens.Session.Control

/-!
# Sessions in time

An edit is shown when its buffer has rested for a while, and the panel opens when the cursor has.
Changes of files are noticed when the session polls.
-/

namespace MessageLens.Session
set_option autoImplicit false

variable {τ : Type}

/-- What the timer of the panel belongs to. -/
def hoverContext : Handle := .word "hover"

/-- The key of the reference at a position of a buffer. -/
def keyAt (id : Handle) (line column : Int) : SessionOperation τ (Option String) := do
  let b ← buffer id
  return keyAt? (← get).options.receiver b.text line column

/-- The key of the reference at the cursor of a buffer. -/
def keyAtCursor (id : Handle) : SessionOperation τ (Option String) := do
  let (line, column) := (← buffer id).cursor
  keyAt id line column

/-- The panel of a key in the locales of the project. -/
def panelFor (s : Session τ) (key : String) : HoverPanel :=
  .build key s.project.messages s.project.locales s.options.virtualText.maxLength

/-- Closes the panel of the editor. -/
def closePanel : SessionOperation τ Unit := do
  emit .panelClosed
  hostPart.change (·.closePanel)

/-- Opens the panel for the key at the cursor of a buffer; whether there is one. -/
def showHover (id : Handle) : SessionOperation τ Bool := do
  match ← keyAtCursor id, (← projectPart.read).settings with
  | some key, some _ =>
    let panel := (← get).panelFor key
    closePanel
    emit (.panelOpened id)
    hostPart.change (·.openPanel id panel)
    return true
  | _, _ => return false

/-- Closes the panel, also one that is about to open. -/
def closeHover : SessionOperation τ Unit := do
  timersPart.change (·.cancel hoverContext)
  closePanel

/-- Does what a timer was set for, unless previews are off or the buffer is closed. -/
def fire (task : SessionTask) : SessionOperation τ Unit := do
  let s ← get
  match task with
  | .update id => if s.enabled && s.host.isValid id then updateBuffer id
  | .hover id => if s.enabled && s.host.isValid id then discard (showHover id)

/-- Does what a watch was set up for. -/
def call (callback : SessionCallback) (_ : Path) : SessionOperation τ Unit :=
  match callback with
  | .settings => onSettingsChanged
  | .messages locale => onMessageFileChanged locale

/-- Notices changes of the watched files; the paths that have changed. -/
def poll : SessionOperation τ (List Path) := (watchOwner call).poll

/-- Ends previews: no buffer is attached and nothing is outstanding or watched any more. -/
def close : SessionOperation τ Unit := do
  timersPart.change (·.cancelAll)
  watcherPart.change (·.clear)
  closePanel
  modify fun s => { s with attached := [] }

variable [Instant τ]

/-- Starts the timer of a context in place of the outstanding one. -/
def startTimer (context : Handle) (delayMs : Int) (task : SessionTask) :
    SessionOperation τ Unit := do
  if (← timersPart.read).scheduler.accepts delayMs then
    timersPart.change fun d => (d.trigger context delayMs task).2
  else
    timersPart.change (·.cancel context)
    throw .delayTooLong

/-- Notes an edit of a buffer, which is shown when no other follows for a while. -/
def onTextChanged (id : Handle) : SessionOperation τ Unit := do
  let s ← get
  if id ∈ s.attached then startTimer id s.options.debounceMs (.update id)

/-- Notes that the cursor rests in a buffer; the panel opens if it goes on resting. -/
def onCursorHold (id : Handle) : SessionOperation τ Unit := do
  let s ← get
  if s.options.hover.enabled && s.enabled && id ∈ s.attached then
    startTimer hoverContext s.options.hover.delayMs (.hover id)

/-- Does what is due; the number of timers fired. -/
def runDue : SessionOperation τ Nat := Debouncer.runDue timersPart fun t => fire t.task.task

end MessageLens.Session
