import MessageLens.Proofs.Operation
import MessageLens.Session.Step

/-!
# What operations leave alone

A session has two sides. Reading the files of the project changes neither the buffers nor the
timers, and drawing, hovering and editing change neither the project nor the watches. Each operation
keeps the side that is not its own, whether it succeeds or fails.
-/

namespace MessageLens.Session
set_option autoImplicit false

open Operation

variable {τ α : Type}

/-- What reading the files of the project leaves alone. -/
structure EditorSide (τ : Type) where
  options : PreviewOptions
  layer : String
  enabled : Bool
  root : Option Path
  attached : List Handle
  timers : Debouncer τ Handle SessionTask
  host : Host
  workspace : Workspace

/-- What working on the buffers leaves alone. -/
structure FileSide where
  options : PreviewOptions
  layer : String
  project : ProjectState
  watcher : Watcher SessionCallback
  workspace : Workspace

/-- The side of the editor. -/
def editorSide (s : Session τ) : EditorSide τ :=
  ⟨s.options, s.layer, s.enabled, s.project.root, s.attached, s.timers, s.host, s.workspace⟩

/-- The side of the files. -/
def fileSide (s : Session τ) : FileSide := ⟨s.options, s.layer, s.project, s.watcher, s.workspace⟩

/-! ## Parts of operations -/

theorem keeps_attempt {ε γ : Type} {view : Session τ → γ} (cause : ε → SessionFailure)
    (x : Except ε α) : Keeps view (attempt cause x : SessionOperation τ α) := by
  cases x with
  | ok a => exact Keeps.pure a
  | error e => exact Keeps.throw (cause e)

theorem keeps_buffer {γ : Type} {view : Session τ → γ} (id : Handle) :
    Keeps view (buffer id : SessionOperation τ Buffer) := by
  refine (Keeps.read hostPart).bind fun h => ?_
  cases h.buffers.get? id with
  | some b => exact Keeps.pure b
  | none => exact Keeps.throw _

theorem keeps_annotationsFor {γ : Type} {view : Session τ → γ} (id : Handle) :
    Keeps view (annotationsFor id : SessionOperation τ (List Annotation)) :=
  (keeps_buffer id).bind fun _ => Keeps.get.bind fun _ => Keeps.pure _

/-- Empties a buffer if it is open. -/
def clearOpen (id : Handle) : SessionOperation τ Unit := do
  if (← hostPart.read).isValid id then clearBuffer id

theorem clearAll_keeps {γ : Type} {view : Session τ → γ}
    (clears : ∀ id, Keeps view (clearBuffer id : SessionOperation τ Unit)) :
    Keeps view (do (← get).attached.forM clearOpen : SessionOperation τ Unit) :=
  Keeps.get.bind fun _ => Keeps.forM (fun id => (Keeps.read hostPart).bind fun _ =>
    Keeps.ite (clears id) (Keeps.pure ())) _

theorem refuseLocale_keeps {γ : Type} {view : Session τ → γ}
    (emits : ∀ e, Keeps view (emit e : SessionOperation τ Unit)) (shown : String) :
    Keeps view (refuseLocale shown : SessionOperation τ Bool) :=
  (Keeps.read projectPart).bind fun _ => Keeps.ite
    ((emits _).bind fun _ => Keeps.pure _) ((emits _).bind fun _ => Keeps.pure _)

theorem changeFiles_keeps {γ : Type} {view : Session τ → γ}
    (files : ∀ s workspace, view { s with workspace := workspace } = view s) (c : FileChange) :
    Keeps view (changeFiles c : SessionOperation τ Unit) :=
  Keeps.get.bind fun _ => (keeps_attempt _ _).bind fun _ => Keeps.modify fun _ => files _ _

/-- Showing the panel does nothing but close and open it. -/
theorem showHover_keeps {γ : Type} {view : Session τ → γ} {id : Handle}
    (closes : Keeps view (closePanel : SessionOperation τ Unit))
    (notes : Keeps view (emit (.panelOpened id) : SessionOperation τ Unit))
    (opens : ∀ panel, Keeps view
      (hostPart.change (·.openPanel id panel) : SessionOperation τ Unit)) :
    Keeps view (showHover id : SessionOperation τ Bool) := by
  refine ((keeps_buffer id).bind fun b =>
    (keeps_buffer id).bind fun _ => Keeps.get.bind fun _ => Keeps.pure _).bind fun key =>
    (Keeps.read projectPart).bind fun p => ?_
  split
  · exact Keeps.get.bind fun _ => closes.bind fun _ => notes.bind fun _ => (opens _).bind fun _ =>
      Keeps.pure _
  · exact Keeps.pure _

section Clock

variable [Instant τ] {γ : Type} {view : Session τ → γ}

theorem startTimer_keeps (times : ∀ s timers, view { s with timers := timers } = view s)
    (context : Handle) (delayMs : Int) (task : SessionTask) :
    Keeps view (startTimer context delayMs task : SessionOperation τ Unit) :=
  (Keeps.read timersPart).bind fun _ => Keeps.ite (Keeps.change times _)
    ((Keeps.change times _).bind fun _ => Keeps.throw _)

theorem onTextChanged_keeps (times : ∀ s timers, view { s with timers := timers } = view s)
    (id : Handle) : Keeps view (onTextChanged id : SessionOperation τ Unit) :=
  Keeps.get.bind fun _ => Keeps.ite (startTimer_keeps times _ _ _) (Keeps.pure ())

theorem onCursorHold_keeps (times : ∀ s timers, view { s with timers := timers } = view s)
    (id : Handle) : Keeps view (onCursorHold id : SessionOperation τ Unit) :=
  Keeps.get.bind fun _ => Keeps.ite (startTimer_keeps times _ _ _) (Keeps.pure ())

end Clock

/-! ## Reading files keeps the side of the editor -/

theorem emit_keeps_editor (e : SessionEvent) :
    Keeps editorSide (emit e : SessionOperation τ Unit) :=
  Keeps.modify fun _ => rfl

theorem project_keeps_editor {f : ProjectState → ProjectState} (same : ∀ p, (f p).root = p.root) :
    Keeps editorSide (projectPart.change f : SessionOperation τ Unit) := by
  intro s
  show EditorSide.mk _ _ _ (f s.project).root _ _ _ _ = _
  rw [same]
  rfl

theorem watcher_keeps_editor (f : Watcher SessionCallback → Watcher SessionCallback) :
    Keeps editorSide (watcherPart.change f : SessionOperation τ Unit) :=
  Keeps.change (fun _ _ => rfl) f

theorem watch_keeps_editor (p : Path) (callback : SessionCallback) :
    Keeps editorSide (watch p callback : SessionOperation τ Unit) := by
  refine (Keeps.read watcherPart).bind fun w => ?_
  cases w.find? p with
  | some _ => exact watcher_keeps_editor _
  | none =>
    exact (Keeps.get.bind fun s => keeps_attempt _ _).bind fun _ => watcher_keeps_editor _

theorem loadLocale_keeps_editor (locale : String) :
    Keeps editorSide (loadLocale locale : SessionOperation τ Unit) := by
  refine Keeps.get.bind fun s => ?_
  split
  · exact (keeps_attempt _ _).bind fun _ =>
      (Keeps.forM (fun _ => emit_keeps_editor _) _).bind fun _ => project_keeps_editor fun _ => rfl
  · exact Keeps.throw _

theorem loadAllLocales_keeps_editor :
    Keeps editorSide (loadAllLocales : SessionOperation τ Unit) :=
  (Keeps.read projectPart).bind fun _ =>
    Keeps.ite (Keeps.forM loadLocale_keeps_editor _) (Keeps.pure ())

theorem watchSettingsFile_keeps_editor :
    Keeps editorSide (watchSettingsFile : SessionOperation τ Unit) := by
  refine (watcher_keeps_editor _).bind fun _ => Keeps.get.bind fun s => ?_
  cases s.project.root with
  | none => exact Keeps.pure ()
  | some root => exact watch_keeps_editor _ _

theorem watchLocale_keeps_editor (root : Path) (settings : ProjectSettings) (locale : String) :
    Keeps editorSide (watchLocale root settings locale : SessionOperation τ Unit) :=
  Keeps.get.bind fun _ => (keeps_attempt _ _).bind fun _ =>
    Keeps.ite (watch_keeps_editor _ _) (Keeps.pure ())

theorem setUpWatches_keeps_editor : Keeps editorSide (setUpWatches : SessionOperation τ Unit) := by
  refine watchSettingsFile_keeps_editor.bind fun _ => (Keeps.read projectPart).bind fun p => ?_
  split
  · exact Keeps.forM (watchLocale_keeps_editor _ _) _
  · exact Keeps.pure ()

theorem applySettings_keeps_editor (settings : ProjectSettings) :
    Keeps editorSide (applySettings settings : SessionOperation τ Unit) :=
  Keeps.bind (project_keeps_editor fun _ => rfl) fun _ => loadAllLocales_keeps_editor.bind fun _ =>
    setUpWatches_keeps_editor

theorem readSettings_keeps_editor (root : Path) :
    Keeps editorSide (readSettings root : SessionOperation τ (Option ProjectSettings)) := by
  refine Keeps.get.bind fun _ => (keeps_attempt _ _).bind fun r => ?_
  cases r with
  | ok settings => exact Keeps.pure _
  | error record => exact (emit_keeps_editor _).bind fun _ => Keeps.pure _

/-- What is done about a project that has been found. -/
def settle (root : Path) : SessionOperation τ Unit := do
  match ← readSettings root with
  | none => watchSettingsFile
  | some settings =>
    applySettings settings
    log .info ("Inlang project at " ++ root.text ++ " (base locale " ++ settings.baseLocale ++
      ", locales " ++ ", ".intercalate settings.locales ++ ")")

theorem discoverProject_settles (file : Path) : discoverProject file = (do
      let s ← get
      match ← attempt .path (findProjectRoot s.workspace file s.options.marker) with
      | none => return ()
      | some root =>
        projectPart.change fun p => { p with root := some root }
        settle root : SessionOperation τ Unit) :=
  rfl

theorem settle_keeps_editor (root : Path) :
    Keeps editorSide (settle root : SessionOperation τ Unit) := by
  refine (readSettings_keeps_editor root).bind fun read => ?_
  cases read with
  | none => exact watchSettingsFile_keeps_editor
  | some settings => exact (applySettings_keeps_editor settings).bind fun _ => emit_keeps_editor _

/-- Looking for the project changes nothing where there is none, and else sets its root and leaves
the rest of the editor's side alone. -/
theorem discoverProject_ok {s s' : Session τ} {file : Path} {u : Unit}
    (run : discoverProject file s = .ok u s') :
    findProjectRoot s.workspace file s.options.marker = .ok none ∧ s' = s ∨
      ∃ root, findProjectRoot s.workspace file s.options.marker = .ok (some root) ∧
        editorSide s' = { editorSide s with root := some root } := by
  simp only [discoverProject_settles, bind_ok, get_ok, exists_both_eq] at run
  obtain ⟨found, t, look, run⟩ := run
  cases read : findProjectRoot s.workspace file s.options.marker with
  | error e =>
    rw [read] at look
    exact (throw_ok.1 look).elim
  | ok answer =>
    rw [read] at look
    obtain ⟨rfl, rfl⟩ := pure_ok.1 look
    cases answer with
    | none =>
      obtain ⟨-, rfl⟩ := pure_ok.1 run
      exact .inl ⟨rfl, rfl⟩
    | some root =>
      obtain ⟨_, t', rooted, settled⟩ := bind_ok.1 run
      obtain rfl := change_ok.1 rooted
      exact .inr ⟨root, rfl, (settle_keeps_editor root).ok settled⟩

/-- Looking for the project may set its root, which no other operation does. -/
theorem discoverProject_editor {s s' : Session τ} {file : Path} {u : Unit}
    (run : discoverProject file s = .ok u s') :
    ∃ root, editorSide s' = { editorSide s with root := root } := by
  rcases discoverProject_ok run with ⟨-, rfl⟩ | ⟨root, -, same⟩
  · exact ⟨s'.project.root, rfl⟩
  · exact ⟨some root, same⟩

/-! ## Views that working on buffers leaves alone -/

/-- A view of a session in which the editor, the timers and the trace of events have no part. -/
structure Aside {γ : Type} (view : Session τ → γ) : Prop where
  emit : ∀ e, Keeps view (emit e : SessionOperation τ Unit)
  host : ∀ f, Keeps view (hostPart.change f : SessionOperation τ Unit)
  timers : ∀ s timers, view { s with timers := timers } = view s

namespace Aside

variable {γ : Type} {view : Session τ → γ}

theorem clearBuffer (apart : Aside view) (id : Handle) :
    Keeps view (Session.clearBuffer id : SessionOperation τ Unit) :=
  (apart.emit _).bind fun _ => Keeps.get.bind fun _ => apart.host _

theorem clearAll (apart : Aside view) :
    Keeps view (do (← get).attached.forM clearOpen : SessionOperation τ Unit) :=
  clearAll_keeps apart.clearBuffer

theorem render (apart : Aside view) (id : Handle) (annotations : List Annotation) :
    Keeps view (Session.render id annotations : SessionOperation τ Nat) :=
  (apart.emit _).bind fun _ => Keeps.get.bind fun _ => (apart.host _).bind fun _ =>
    (Keeps.forM (fun _ => apart.emit _) _).bind fun _ => Keeps.ite (Keeps.throw _) (Keeps.pure _)

theorem updateBuffer (apart : Aside view) (id : Handle) :
    Keeps view (Session.updateBuffer id : SessionOperation τ Unit) :=
  Keeps.get.bind fun _ => Keeps.ite
    (Keeps.ite ((keeps_annotationsFor id).bind fun _ => (apart.render id _).discard)
      (apart.clearBuffer id))
    (Keeps.pure ())

theorem closePanel (apart : Aside view) :
    Keeps view (Session.closePanel : SessionOperation τ Unit) :=
  (apart.emit _).bind fun _ => apart.host _

theorem showHover (apart : Aside view) (id : Handle) :
    Keeps view (Session.showHover id : SessionOperation τ Bool) :=
  showHover_keeps apart.closePanel (apart.emit _) fun _ => apart.host _

theorem closeHover (apart : Aside view) :
    Keeps view (Session.closeHover : SessionOperation τ Unit) :=
  Keeps.bind (Keeps.change apart.timers _) fun _ => apart.closePanel

theorem fire (apart : Aside view) (task : SessionTask) :
    Keeps view (Session.fire task : SessionOperation τ Unit) := by
  refine Keeps.get.bind fun s => ?_
  cases task with
  | update id => exact Keeps.ite (apart.updateBuffer id) (Keeps.pure ())
  | hover id => exact Keeps.ite (apart.showHover id).discard (Keeps.pure ())

theorem openBuffer (apart : Aside view) (path : String) (text : Option String) :
    Keeps view (Session.openBuffer path text : SessionOperation τ Handle) := by
  refine Keeps.get.bind fun s => ?_
  cases text with
  | some text => exact (Keeps.pure _).bind fun _ => (apart.host _).bind fun _ => Keeps.pure _
  | none => exact (keeps_attempt _ _).bind fun _ => (apart.host _).bind fun _ => Keeps.pure _

theorem changeBuffer (apart : Aside view) (id : Handle) (f : Buffer → Buffer) :
    Keeps view (Session.changeBuffer id f : SessionOperation τ Unit) := by
  refine (Keeps.read hostPart).bind fun h => ?_
  cases h.updateBuffer? id f with
  | some host => exact apart.host _
  | none => exact Keeps.throw _

section Clock

variable [Instant τ]

theorem onTextChanged (apart : Aside view) (id : Handle) :
    Keeps view (Session.onTextChanged id : SessionOperation τ Unit) :=
  onTextChanged_keeps apart.timers id

theorem onCursorHold (apart : Aside view) (id : Handle) :
    Keeps view (Session.onCursorHold id : SessionOperation τ Unit) :=
  onCursorHold_keeps apart.timers id

end Clock

end Aside

/-- Running what is due keeps what neither the timers nor their tasks touch. -/
theorem runDue_keeps [Instant τ] {γ : Type} {view : Session τ → γ}
    (times : ∀ s timers, view { s with timers := timers } = view s)
    (fires : ∀ task, Keeps view (fire task : SessionOperation τ Unit)) :
    Keeps view (runDue : SessionOperation τ Nat) := by
  refine (Keeps.update (fun s _ => times s _) _).bind fun batch => ?_
  induction batch with
  | nil => exact Keeps.pure 0
  | cons t rest ih =>
    exact (Keeps.read _).bind fun _ => Keeps.ite
      ((Keeps.change (fun s _ => times s _) _).bind fun _ =>
        ((Keeps.change times _).bind fun _ => fires _).bind fun _ => ih.bind fun _ => Keeps.pure _)
      ih

/-! ## Working on buffers keeps the side of the files -/

theorem fileSide_aside : Aside (fileSide (τ := τ)) :=
  ⟨fun _ => Keeps.modify fun _ => rfl, fun f => Keeps.change (fun _ _ => rfl) f, fun _ _ => rfl⟩

theorem emit_keeps_files (e : SessionEvent) : Keeps fileSide (emit e : SessionOperation τ Unit) :=
  fileSide_aside.emit e

theorem host_keeps_files (f : Host → Host) :
    Keeps fileSide (hostPart.change f : SessionOperation τ Unit) :=
  fileSide_aside.host f

theorem timers_keep_files (f : Debouncer τ Handle SessionTask → Debouncer τ Handle SessionTask) :
    Keeps fileSide (timersPart.change f : SessionOperation τ Unit) :=
  Keeps.change (fun _ _ => rfl) f

theorem updateBuffer_keeps_files (id : Handle) :
    Keeps fileSide (updateBuffer id : SessionOperation τ Unit) := fileSide_aside.updateBuffer id

theorem updateAll_keeps_files : Keeps fileSide (updateAll : SessionOperation τ Unit) :=
  Keeps.get.bind fun _ => Keeps.forM updateBuffer_keeps_files _

/-- What a command ends with does not change what is known of the files. -/
theorem updateAll_log_keeps_files (text : String) : Keeps fileSide (do
    updateAll
    log .info text : SessionOperation τ Unit) :=
  updateAll_keeps_files.bind fun _ => emit_keeps_files _

theorem detach_keeps_files (id : Handle) :
    Keeps fileSide (detach id : SessionOperation τ Unit) :=
  Keeps.bind (Keeps.modify fun _ => rfl) fun _ => timers_keep_files _

theorem enable_keeps_files : Keeps fileSide (enable : SessionOperation τ Unit) :=
  Keeps.bind (Keeps.modify fun _ => rfl) fun _ => updateAll_keeps_files

theorem disable_keeps_files : Keeps fileSide (disable : SessionOperation τ Unit) :=
  Keeps.bind (Keeps.modify fun _ => rfl) fun _ => (timers_keep_files _).bind fun _ =>
    fileSide_aside.clearAll

theorem toggle_keeps_files : Keeps fileSide (toggle : SessionOperation τ Bool) :=
  Keeps.get.bind fun _ => Keeps.ite
    (disable_keeps_files.bind fun _ => (emit_keeps_files _).bind fun _ =>
      Keeps.get.bind fun _ => Keeps.pure _)
    (enable_keeps_files.bind fun _ => (emit_keeps_files _).bind fun _ =>
      Keeps.get.bind fun _ => Keeps.pure _)

theorem showHover_keeps_files (id : Handle) :
    Keeps fileSide (showHover id : SessionOperation τ Bool) := fileSide_aside.showHover id

theorem closeHover_keeps_files : Keeps fileSide (closeHover : SessionOperation τ Unit) :=
  fileSide_aside.closeHover

theorem openBuffer_keeps_files (path : String) (text : Option String) :
    Keeps fileSide (openBuffer path text : SessionOperation τ Handle) :=
  fileSide_aside.openBuffer path text

theorem changeBuffer_keeps_files (id : Handle) (f : Buffer → Buffer) :
    Keeps fileSide (changeBuffer id f : SessionOperation τ Unit) := fileSide_aside.changeBuffer id f

section Clock

variable [Instant τ]

theorem onTextChanged_keeps_files (id : Handle) :
    Keeps fileSide (onTextChanged id : SessionOperation τ Unit) := fileSide_aside.onTextChanged id

theorem onCursorHold_keeps_files (id : Handle) :
    Keeps fileSide (onCursorHold id : SessionOperation τ Unit) := fileSide_aside.onCursorHold id

theorem runDue_keeps_files : Keeps fileSide (runDue : SessionOperation τ Nat) :=
  runDue_keeps (fun _ _ => rfl) fileSide_aside.fire

end Clock

/-- The step looks at the files of the project, at its settings or at the watches. -/
def Consults : SessionStep → Prop
  | .attach _ | .refresh | .selectLocale _ | .loadAllLocales | .messageFileChanged _ => True
  | .settingsChanged | .close | .poll | .change _ => True
  | _ => False

/-- All other steps keep the side of the files. -/
theorem perform_keeps_files [Instant τ] {step : SessionStep} (apart : ¬ Consults step) :
    Keeps fileSide (perform step : SessionOperation τ SessionAnswer) := by
  have answers {β : Type} {x : SessionOperation τ β} {f : β → SessionAnswer}
      (keeps : Keeps fileSide x) :
      Keeps fileSide (x >>= fun a => pure (f a) : SessionOperation τ SessionAnswer) :=
    keeps.bind fun _ => Keeps.pure _
  cases step with
  | openBuffer path text => exact answers (openBuffer_keeps_files path text)
  | closeBuffer id => exact answers (host_keeps_files _)
  | setText id text => exact answers (changeBuffer_keeps_files id _)
  | setCursor id line column => exact answers (changeBuffer_keeps_files id _)
  | detach id => exact answers (detach_keeps_files id)
  | textChanged id => exact answers (onTextChanged_keeps_files id)
  | showHover id => exact answers (showHover_keeps_files id)
  | closeHover => exact answers closeHover_keeps_files
  | cursorHold id => exact answers (onCursorHold_keeps_files id)
  | cursorMoved id => exact answers closeHover_keeps_files
  | updateBuffer id => exact answers (updateBuffer_keeps_files id)
  | updateAll => exact answers updateAll_keeps_files
  | enable => exact answers enable_keeps_files
  | disable => exact answers disable_keeps_files
  | toggle => exact answers toggle_keeps_files
  | advance ms => exact answers (timers_keep_files _)
  | runDue => exact answers runDue_keeps_files
  | _ => exact absurd trivial apart

/-! ## Views that reading leaves alone -/

/-- A view of a session that reading the files of the project does not change. -/
structure Unread {γ : Type} (view : Session τ → γ) : Prop where
  reading : ∀ {α : Type} {x : SessionOperation τ α}, Keeps editorSide x → Keeps view x

namespace Unread

variable {γ : Type} {view : Session τ → γ}

theorem emit (unread : Unread view) (e : SessionEvent) :
    Keeps view (Session.emit e : SessionOperation τ Unit) := unread.reading (emit_keeps_editor e)

theorem discoverProject (unread : Unread view)
    (roots : ∀ f, Keeps view (projectPart.change f : SessionOperation τ Unit)) (file : Path) :
    Keeps view (Session.discoverProject file : SessionOperation τ Unit) := by
  rw [discoverProject_settles]
  refine Keeps.get.bind fun _ => (keeps_attempt _ _).bind fun found => ?_
  cases found with
  | none => exact Keeps.pure ()
  | some root => exact (roots _).bind fun _ => unread.reading (settle_keeps_editor root)

theorem attach (unread : Unread view)
    (roots : ∀ f, Keeps view (projectPart.change f : SessionOperation τ Unit)) (id : Handle)
    (adds : Keeps view (modify fun s => { s with attached := s.attached ++ [id] } :
      SessionOperation τ Unit))
    (draws : Keeps view (updateBuffer id : SessionOperation τ Unit)) :
    Keeps view (Session.attach id : SessionOperation τ Bool) := by
  have ending : Keeps view (do
      modify fun s => { s with attached := s.attached ++ [id] }
      if (← get).enabled then updateBuffer id
      return true : SessionOperation τ Bool) :=
    adds.bind fun _ => Keeps.get.bind fun _ =>
      Keeps.ite (draws.bind fun _ => Keeps.pure _) (Keeps.pure _)
  exact Keeps.get.bind fun _ => Keeps.ite (Keeps.pure _) <| (keeps_buffer id).bind fun _ =>
    Keeps.ite (Keeps.pure _) <| (Keeps.read projectPart).bind fun _ =>
    Keeps.ite ((unread.discoverProject roots _).bind fun _ => ending) ending

variable (draws : Keeps view (updateAll : SessionOperation τ Unit))
include draws

theorem refresh (unread : Unread view) :
    Keeps view (Session.refresh : SessionOperation τ Unit) := by
  have ending : Keeps view (do
      Session.updateAll
      log .info "Lazy Watson translations refreshed" : SessionOperation τ Unit) :=
    draws.bind fun _ => unread.emit _
  refine (Keeps.read projectPart).bind fun p => ?_
  split
  · refine (unread.reading (readSettings_keeps_editor _)).bind fun read => ?_
    cases read with
    | some settings =>
      exact (unread.reading (applySettings_keeps_editor settings)).bind fun _ => ending
    | none => exact ending
  · exact (unread.reading (project_keeps_editor fun _ => by rfl)).bind fun _ =>
      (unread.reading loadAllLocales_keeps_editor).bind fun _ => ending

theorem selectLocale (unread : Unread view) (locale : String) :
    Keeps view (Session.selectLocale locale : SessionOperation τ Bool) := by
  have ending : Keeps view (do
      Session.updateAll
      log .info ("Locale set to: " ++ locale)
      return true : SessionOperation τ Bool) :=
    draws.bind fun _ => (unread.emit _).bind fun _ => Keeps.pure _
  exact (Keeps.read projectPart).bind fun _ => Keeps.ite (refuseLocale_keeps unread.emit _) <|
    (unread.reading (project_keeps_editor fun _ => by rfl)).bind fun _ => Keeps.ite
      ((unread.reading (loadLocale_keeps_editor locale)).bind fun _ => ending) ending

theorem onMessageFileChanged (unread : Unread view) (locale : String) :
    Keeps view (Session.onMessageFileChanged locale : SessionOperation τ Unit) :=
  (Keeps.read projectPart).bind fun _ => Keeps.ite
    ((unread.emit _).bind fun _ =>
      (unread.reading (loadLocale_keeps_editor locale)).bind fun _ => draws)
    (Keeps.pure ())

theorem onSettingsChanged (unread : Unread view) :
    Keeps view (Session.onSettingsChanged : SessionOperation τ Unit) := by
  refine (Keeps.read projectPart).bind fun p => ?_
  split
  · exact Keeps.pure ()
  · refine (unread.reading (readSettings_keeps_editor _)).bind fun read => ?_
    cases read with
    | some settings =>
      exact (unread.reading (applySettings_keeps_editor settings)).bind fun _ => draws
    | none =>
      exact (unread.reading (project_keeps_editor fun _ => by rfl)).bind fun _ =>
        (unread.reading watchSettingsFile_keeps_editor).bind fun _ => draws

theorem poll (unread : Unread view) :
    Keeps view (Session.poll : SessionOperation τ (List Path)) := by
  refine (Keeps.read watcherPart).bind fun w => ?_
  induction w.watches with
  | nil => exact Keeps.pure []
  | cons x rest ih =>
    refine (Keeps.get.bind fun _ => keeps_attempt _ _).bind fun stamp =>
      Keeps.ite ih ((Keeps.read watcherPart).bind fun w => ?_)
    split
    · exact ih
    · refine (unread.reading (watcher_keeps_editor _)).bind fun _ => (unread.emit _).bind fun _ =>
        (Keeps.forM (fun callback => ?_) _).bind fun _ => ih.bind fun _ => Keeps.pure _
      cases callback with
      | settings => exact unread.onSettingsChanged draws
      | messages locale => exact unread.onMessageFileChanged draws locale

end Unread

/-! ## Views that reading and drawing leave alone -/

/-- A view of a session that neither reading the files of the project nor drawing changes. -/
structure Undisturbed {γ : Type} (view : Session τ → γ) : Prop extends Unread view where
  project : ∀ f, Keeps view (projectPart.change f : SessionOperation τ Unit)
  drawing : ∀ id, Keeps view (updateBuffer id : SessionOperation τ Unit)

namespace Undisturbed

variable {γ : Type} {view : Session τ → γ}

theorem emit (calm : Undisturbed view) (e : SessionEvent) :
    Keeps view (Session.emit e : SessionOperation τ Unit) := calm.toUnread.emit e

theorem updateAll (calm : Undisturbed view) :
    Keeps view (Session.updateAll : SessionOperation τ Unit) :=
  Keeps.get.bind fun _ => Keeps.forM calm.drawing _

theorem discoverProject (calm : Undisturbed view) (file : Path) :
    Keeps view (Session.discoverProject file : SessionOperation τ Unit) :=
  calm.toUnread.discoverProject calm.project file

theorem attach (calm : Undisturbed view) (id : Handle)
    (adds : Keeps view (modify fun s => { s with attached := s.attached ++ [id] } :
      SessionOperation τ Unit)) : Keeps view (Session.attach id : SessionOperation τ Bool) :=
  calm.toUnread.attach calm.project id adds (calm.drawing id)

theorem refresh (calm : Undisturbed view) :
    Keeps view (Session.refresh : SessionOperation τ Unit) := calm.toUnread.refresh calm.updateAll

theorem selectLocale (calm : Undisturbed view) (locale : String) :
    Keeps view (Session.selectLocale locale : SessionOperation τ Bool) :=
  calm.toUnread.selectLocale calm.updateAll locale

theorem onMessageFileChanged (calm : Undisturbed view) (locale : String) :
    Keeps view (Session.onMessageFileChanged locale : SessionOperation τ Unit) :=
  calm.toUnread.onMessageFileChanged calm.updateAll locale

theorem onSettingsChanged (calm : Undisturbed view) :
    Keeps view (Session.onSettingsChanged : SessionOperation τ Unit) :=
  calm.toUnread.onSettingsChanged calm.updateAll

theorem poll (calm : Undisturbed view) :
    Keeps view (Session.poll : SessionOperation τ (List Path)) := calm.toUnread.poll calm.updateAll

end Undisturbed

end MessageLens.Session
