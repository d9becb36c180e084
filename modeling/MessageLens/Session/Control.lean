import MessageLens.Session.Project
import MessageLens.Source.Kind

/-!
# What a user asks of a session

Buffers are attached and detached, previews are switched on and off, messages are loaded anew, and
another locale is displayed. Each of these draws every attached buffer anew where it matters.
-/

namespace MessageLens.Session
set_option autoImplicit false

variable {τ : Type}

/-- Starts previews for a buffer; whether the buffer holds a source file. -/
def attach (id : Handle) : SessionOperation τ Bool := do
  if id ∈ (← get).attached then return true
  let b ← buffer id
  if b.path = "" || !isSourcePath (Path.parse b.path) then return false
  if (← projectPart.read).root.isNone then discoverProject (Path.parse b.path)
  modify fun s => { s with attached := s.attached ++ [id] }
  if (← get).enabled then updateBuffer id
  return true

/-- Stops previews for a buffer. -/
def detach (id : Handle) : SessionOperation τ Unit := do
  modify fun s => { s with attached := s.attached.filter (· ≠ id) }
  timersPart.change (·.cancel id)

/-- Switches previews on. -/
def enable : SessionOperation τ Unit := do
  modify fun s => { s with enabled := true }
  updateAll

/-- Switches previews off and removes what is drawn. -/
def disable : SessionOperation τ Unit := do
  modify fun s => { s with enabled := false }
  timersPart.change (·.cancelAll)
  (← get).attached.forM fun id => do
    if (← hostPart.read).isValid id then clearBuffer id

/-- Switches previews over; whether they are on afterwards. -/
def toggle : SessionOperation τ Bool := do
  if (← get).enabled then
    disable
    log .info "Lazy Watson disabled"
  else
    enable
    log .info "Lazy Watson enabled"
  return (← get).enabled

/-- Drops all messages and loads them anew; settings that could not be used are tried again. -/
def refresh : SessionOperation τ Unit := do
  match ← projectPart.read with
  | { root := some root, settings := none, .. } =>
    match ← readSettings root with
    | some settings => applySettings settings
    | none => pure ()
  | _ =>
    projectPart.change fun p => { p with messages := ∅ }
    loadAllLocales
  updateAll
  log .info "Lazy Watson translations refreshed"

/-- The locales of the project with labels that mark the displayed one and the base locale. -/
def localeChoices (p : ProjectState) : List (String × String) :=
  match p.settings with
  | none => []
  | some settings => settings.locales.map fun locale =>
    (locale,
      if some locale = p.locale then locale ++ " (current)"
      else if locale = settings.baseLocale then locale ++ " (base)"
      else locale)

/-- Says why a locale, which is shown as `shown`, is not displayed. -/
def refuseLocale (shown : String) : SessionOperation τ Bool := do
  let project ← projectPart.read
  if project.settings.isNone then log .warning "No inlang project found"
  else log .warning ("Unknown locale " ++ shown ++ " (project locales: " ++
    ", ".intercalate project.locales ++ ")")
  return false

/-- Displays a locale of the project; whether it is one. -/
def selectLocale (locale : String) : SessionOperation τ Bool := do
  let project ← projectPart.read
  if project.settings.isNone ∨ locale ∉ project.locales then
    return ← refuseLocale (quoted locale)
  projectPart.change fun p => { p with locale := some locale }
  if !project.messages.contains locale then loadLocale locale
  updateAll
  log .info ("Locale set to: " ++ locale)
  return true

/-- Replaces the messages by those of the other locales. -/
def forgetLocale (locale : String) : SessionOperation τ Unit :=
  projectPart.change fun p => { p with messages := p.messages.erase locale }

/-- Loads the messages of one locale anew after a change of its file. -/
def onMessageFileChanged (locale : String) : SessionOperation τ Unit := do
  if (← projectPart.read).isDetected then
    log .debug ("Reloading messages for " ++ locale)
    loadLocale locale
    updateAll

/-- Reads the settings anew after a change of their file. -/
def onSettingsChanged : SessionOperation τ Unit := do
  match (← projectPart.read).root with
  | none => return ()
  | some root =>
    match ← readSettings root with
    | some settings => applySettings settings
    | none =>
      projectPart.change fun p => { p with settings := none, messages := ∅ }
      watchSettingsFile
    updateAll

end MessageLens.Session
