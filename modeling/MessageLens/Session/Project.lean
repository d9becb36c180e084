import MessageLens.Session.Drawing

/-!
# The project of a session

A project is discovered once, when the first buffer inside one is attached; its root never changes
after that. Usable settings are applied as a whole: the messages of all locales are loaded anew and
the watches are set up anew. While the settings cannot be used only the settings file is watched.
-/

namespace MessageLens.Session
set_option autoImplicit false

variable {τ : Type}

/-- The watcher of a session as an owner that is given how callbacks run. -/
def watchOwner (call : SessionCallback → Path → SessionOperation τ Unit) :
    WatchOwner SessionFailure (Session τ) SessionCallback where
  watcher := watcherPart
  stamp p := do attempt .file ((← get).workspace.stamp? p)
  report r := emit (.logged r)
  call := call

/-- Registers a callback for a path. -/
def watch (p : Path) (callback : SessionCallback) : SessionOperation τ Unit :=
  (watchOwner fun _ _ => return ()).watch p callback

/-- Loads the messages of a locale in place of those kept for it. -/
def loadLocale (locale : String) : SessionOperation τ Unit := do
  let s ← get
  match s.project.root, s.project.settings with
  | some root, some settings =>
    let (messages, records) ←
      attempt .messages (loadMessages s.workspace root settings.pathPattern locale)
    records.forM fun r => emit (.logged r)
    projectPart.change fun p => { p with messages := p.messages.set locale messages }
  | _, _ => throw .noProject

/-- Loads the messages of every locale of a detected project. -/
def loadAllLocales : SessionOperation τ Unit := do
  let project ← projectPart.read
  if project.isDetected then project.locales.forM loadLocale

/-- Watches the settings file of the project and nothing else. -/
def watchSettingsFile : SessionOperation τ Unit := do
  watcherPart.change (·.clear)
  let s ← get
  match s.project.root with
  | none => return ()
  | some root => watch (root.join (Path.parse s.options.marker)) .settings

/-- Watches the message file of a locale if there is one. -/
def watchLocale (root : Path) (settings : ProjectSettings) (locale : String) :
    SessionOperation τ Unit := do
  let file := messagePath root settings.pathPattern locale
  if ← attempt .file ((← get).workspace.isFile file) then watch file (.messages locale)

/-- Watches the settings file and the message files of a detected project. -/
def setUpWatches : SessionOperation τ Unit := do
  watchSettingsFile
  let project ← projectPart.read
  match project.root, project.settings with
  | some root, some settings => settings.locales.forM (watchLocale root settings)
  | _, _ => return ()

/-- Makes settings those of the project. The displayed locale stays if it is one of theirs. -/
def applySettings (settings : ProjectSettings) : SessionOperation τ Unit := do
  projectPart.change fun p => { p with
    settings := some settings
    locale := match p.locale with
      | some locale => if locale ∈ settings.locales then some locale else some settings.baseLocale
      | none => some settings.baseLocale
    messages := ∅ }
  loadAllLocales
  setUpWatches

/-- The settings in the settings file under a root, if they can be used. -/
def readSettings (root : Path) : SessionOperation τ (Option ProjectSettings) := do
  let s ← get
  match ← attempt .file (loadSettings s.workspace root s.options.marker) with
  | .ok settings => return some settings
  | .error record =>
    emit (.logged record)
    return none

/-- Looks for the project of a source file. -/
def discoverProject (file : Path) : SessionOperation τ Unit := do
  let s ← get
  match ← attempt .path (findProjectRoot s.workspace file s.options.marker) with
  | none => return ()
  | some root =>
    projectPart.change fun p => { p with root := some root }
    match ← readSettings root with
    | none => watchSettingsFile
    | some settings =>
      applySettings settings
      log .info ("Inlang project at " ++ root.text ++ " (base locale " ++ settings.baseLocale ++
        ", locales " ++ ", ".intercalate settings.locales ++ ")")

end MessageLens.Session
