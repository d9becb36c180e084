import MessageLens.Proofs.Session.Blank
import MessageLens.Proofs.Session.Recovery

/-!
# Reading the settings anew

When the settings file has changed, what the session makes of it depends on the root of the project,
the displayed locale and the files alone: messages are dropped before they are loaded, and the
watcher is cleared before anything is watched. So whatever has been done before, a session comes to
the same settings, messages and watches as any other, and to those of a session that has just found
the project.
-/

namespace MessageLens
set_option autoImplicit false

open Operation

namespace Session

variable {τ : Type} {s s' t f : Session τ} {u : Unit} {root : Path} {settings : ProjectSettings}

/-- Besides, they watch the same files for the same reasons, with the same stamps. -/
structure SameWatches (s t : Session τ) : Prop extends SameProject s t where
  layout : t.watcher.layout = s.watcher.layout

theorem SameFiles.of_fileSide {s₁ t₁ : Session τ} (same : SameFiles s t)
    (left : fileSide s₁ = fileSide s) (right : fileSide t₁ = fileSide t) : SameFiles s₁ t₁ := by
  have workspace : s₁.workspace = s.workspace := congrArg FileSide.workspace left
  have workspace' : t₁.workspace = t.workspace := congrArg FileSide.workspace right
  have options : s₁.options = s.options := congrArg FileSide.options left
  have options' : t₁.options = t.options := congrArg FileSide.options right
  refine ⟨?_, ?_⟩
  · rw [options, options', same.options]
  · rw [workspace, workspace']
    exact same.workspace

theorem SameWatches.of_fileSide {s₁ t₁ : Session τ} (same : SameWatches s t)
    (left : fileSide s₁ = fileSide s) (right : fileSide t₁ = fileSide t) : SameWatches s₁ t₁ := by
  have project : s₁.project = s.project := congrArg FileSide.project left
  have project' : t₁.project = t.project := congrArg FileSide.project right
  have watcher : s₁.watcher = s.watcher := congrArg FileSide.watcher left
  have watcher' : t₁.watcher = t.watcher := congrArg FileSide.watcher right
  refine ⟨⟨same.toSameFiles.of_fileSide left right, ?_⟩, ?_⟩
  · rw [project, project', same.project]
  · rw [watcher, watcher', same.layout]

/-! ## What the watches were before is not looked at -/

theorem sameProject_unseen : Unseen (SameProject (τ := τ)) where
  same _ _ related := related
  emit _ := Respects.modify fun _ _ related =>
    ⟨⟨related.options, related.workspace⟩, related.project⟩
  project f := Respects.change fun _ _ related =>
    ⟨⟨related.options, related.workspace⟩, congrArg f related.project⟩

theorem sameWatches_watch (p : Path) (callback : SessionCallback) :
    Respects SameWatches (watch p callback : SessionOperation τ Unit) := by
  intro s t related u s' run
  have known : (t.watcher.find? p).isSome = (s.watcher.find? p).isSome := by
    rw [Watcher.isSome_find?, Watcher.isSome_find?, related.layout]
  rcases watch_ok.1 run with ⟨x, found, rfl⟩ | ⟨free, stamp, present, rfl⟩
  · rw [found] at known
    obtain ⟨y, found'⟩ := Option.isSome_iff_exists.1 known
    refine ⟨_, watch_ok.2 (.inl ⟨y, found', rfl⟩), ⟨⟨related.options, related.workspace⟩,
      related.project⟩, ?_⟩
    rw [Watcher.layout_addCallback, Watcher.layout_addCallback, related.layout]
  · rw [free] at known
    have free' : t.watcher.find? p = none := Option.not_isSome_iff_eq_none.1 (by simp [known])
    rw [← related.stamp?] at present
    refine ⟨_, watch_ok.2 (.inr ⟨free', stamp, present, rfl⟩), ⟨⟨related.options,
      related.workspace⟩, related.project⟩, ?_⟩
    rw [Watcher.layout_begin, Watcher.layout_begin, related.layout]

/-- Setting up watches does not look at when those before have been begun. -/
theorem sameWatches_unseen : UnseenByWatches (SameWatches (τ := τ)) where
  same _ _ related := related.toSameProject
  emit _ := Respects.modify fun _ _ related =>
    ⟨⟨⟨related.options, related.workspace⟩, related.project⟩, related.layout⟩
  project f := Respects.change fun _ _ related =>
    ⟨⟨⟨related.options, related.workspace⟩, congrArg f related.project⟩, related.layout⟩
  clear := Respects.change fun _ _ related =>
    ⟨⟨⟨related.options, related.workspace⟩, related.project⟩, rfl⟩
  watch := sameWatches_watch

namespace SameProject

/-- With its watcher cleared, a session is like any that knows the same of the project. -/
theorem cleared (same : SameProject s t) :
    SameWatches (watcherPart.put s s.watcher.clear) (watcherPart.put t t.watcher.clear) :=
  ⟨⟨⟨same.options, same.workspace⟩, same.project⟩, rfl⟩

theorem setUpWatches (same : SameProject s t) (run : Session.setUpWatches s = .ok u s') :
    ∃ t', Session.setUpWatches t = .ok u t' ∧ SameWatches s' t' := by
  -- the watcher is cleared once more if it has been cleared before
  have again (s : Session τ) : Session.setUpWatches s =
      Session.setUpWatches (watcherPart.put s s.watcher.clear) := rfl
  rw [again s] at run
  rw [again t]
  exact sameWatches_unseen.setUpWatches same.cleared run

theorem watchSettingsFile (same : SameProject s t)
    (run : Session.watchSettingsFile s = .ok u s') :
    ∃ t', Session.watchSettingsFile t = .ok u t' ∧ SameWatches s' t' := by
  have again (s : Session τ) : Session.watchSettingsFile s =
      Session.watchSettingsFile (watcherPart.put s s.watcher.clear) := rfl
  rw [again s] at run
  rw [again t]
  exact sameWatches_unseen.watchSettingsFile same.cleared run

/-- What comes of putting settings in force does not depend on what has been watched before. -/
theorem loads (same : SameProject s t)
    (run : (do loadAllLocales; Session.setUpWatches : SessionOperation τ Unit) s = .ok u s') :
    ∃ t', (do loadAllLocales; Session.setUpWatches : SessionOperation τ Unit) t = .ok u t' ∧
      SameWatches s' t' := by
  obtain ⟨_, s₁, loaded, watched⟩ := bind_ok.1 run
  obtain ⟨t₁, loaded', same₁⟩ := sameProject_unseen.loadAllLocales same loaded
  obtain ⟨t', watched', same'⟩ := same₁.setUpWatches watched
  exact ⟨t', bind_ok.2 ⟨_, t₁, loaded', watched'⟩, same'⟩

end SameProject

theorem SameFiles.adopting (same : SameFiles s t) (root : t.project.root = s.project.root)
    (locale : t.project.locale = s.project.locale) (settings : ProjectSettings) :
    SameProject (s.adopting settings) (t.adopting settings) := by
  refine ⟨⟨same.options, same.workspace⟩, ?_⟩
  simp only [Session.adopting, root, locale]

theorem SameWatches.updateAll (same : SameWatches s t) (run : Session.updateAll s = .ok u s') :
    ∃ t', Session.updateAll t = .ok u t' ∧ SameWatches s' t' := by
  obtain ⟨t', run', -⟩ := updateAll_ok t
  exact ⟨t', run', same.of_fileSide (updateAll_keeps_files.ok run) (updateAll_keeps_files.ok run')⟩

/-! ## Settings that have changed -/

theorem onSettingsChanged_of_root (found : s.project.root = some root) :
    onSettingsChanged s = (do
      match ← readSettings root with
      | some settings => applySettings settings
      | none =>
        projectPart.change fun p => { p with settings := none, messages := ∅ }
        watchSettingsFile
      updateAll : SessionOperation τ Unit) s := by
  obtain ⟨_, _, _, ⟨root, _, _, _⟩, _, _, _, _, _, _⟩ := s
  cases found
  rfl

/-- Reading the settings anew comes to the same in sessions that agree on the root and on the
displayed locale. -/
theorem onSettingsChanged_forgets (same : SameFiles s t) (found : s.project.root = some root)
    (root' : t.project.root = s.project.root) (locale : t.project.locale = s.project.locale)
    (run : onSettingsChanged s = .ok u s') :
    ∃ t', onSettingsChanged t = .ok u t' ∧ SameWatches s' t' := by
  have found' : t.project.root = some root := root'.trans found
  rw [onSettingsChanged_of_root found] at run
  rw [onSettingsChanged_of_root found']
  obtain ⟨read, s₁, reading, rest⟩ := bind_ok.1 run
  obtain ⟨loaded, events, current, rfl, rfl⟩ := readSettings_ok reading
  obtain ⟨events', reading'⟩ :=
    readSettings_of_loadSettings ((same.loadSettings root).trans current)
  rw [bind_of_ok reading']
  have same' : SameFiles { s with events := events } { t with events := events' } :=
    ⟨same.options, same.workspace⟩
  cases loaded with
  | ok settings =>
    obtain ⟨_, s₂, applied, drawn⟩ := bind_ok.1 rest
    rw [applySettings_eq] at applied
    obtain ⟨t₂, applied', same₂⟩ := (same'.adopting root' locale settings).loads applied
    obtain ⟨t', drawn', same''⟩ := same₂.updateAll drawn
    rw [← applySettings_eq] at applied'
    exact ⟨t', bind_ok.2 ⟨_, t₂, applied', drawn'⟩, same''⟩
  | error record =>
    obtain ⟨_, s₂, dropped, rest⟩ := bind_ok.1 rest
    obtain ⟨_, s₃, watched, drawn⟩ := bind_ok.1 rest
    obtain rfl := change_ok.1 dropped
    have bare : SameProject
        (projectPart.put { s with events := events }
          { s.project with settings := none, messages := ∅ })
        (projectPart.put { t with events := events' }
          { t.project with settings := none, messages := ∅ }) := by
      refine ⟨⟨same.options, same.workspace⟩, ?_⟩
      simp only [projectPart, root', locale]
    obtain ⟨t₃, watched', same₃⟩ := bare.watchSettingsFile watched
    obtain ⟨t', drawn', same''⟩ := same₃.updateAll drawn
    exact ⟨t', bind_ok.2 ⟨_, _, rfl, bind_ok.2 ⟨_, t₃, watched', drawn'⟩⟩, same''⟩

/-! ## A session that has just found the project -/

/-- Looking for a project from the source file in a buffer finds this one. -/
def Finds (s : Session τ) (id : Handle) (root : Path) : Prop :=
  ∃ b, s.host.buffers.get? id = some b ∧ b.path ≠ "" ∧ isSourcePath (Path.parse b.path) = true ∧
    findProjectRoot s.workspace (Path.parse b.path) s.options.marker = .ok (some root)

/-- A buffer is attached once the search for its project has succeeded. -/
theorem attach_of_discovered {id : Handle} {b : Buffer} (free : id ∉ s.attached)
    (isOpen : s.host.buffers.get? id = some b) (named : b.path ≠ "")
    (source : isSourcePath (Path.parse b.path) = true) (rootless : s.project.root = none)
    (discovered : discoverProject (Path.parse b.path) s = .ok u t) :
    ∃ s', attach id s = .ok true s' ∧ fileSide s' = fileSide t := by
  rw [attach_eq free isOpen named source rootless, bind_of_ok discovered,
    bind_of_ok (a := ()) (modify_ok.2 rfl), bind_of_ok (get_ok.2 ⟨rfl, rfl⟩)]
  by_cases on : t.enabled = true
  · obtain ⟨s', drawn, -⟩ := updateBuffer_ok id { t with attached := t.attached ++ [id] }
    have kept := (updateBuffer_keeps_files id).ok drawn
    refine ⟨s', ?_, kept⟩
    rw [if_pos (by exact on), bind_of_ok drawn]
    rfl
  · refine ⟨{ t with attached := t.attached ++ [id] }, ?_, rfl⟩
    rw [if_neg (by exact on)]
    rfl

/-- As long as no locale has been displayed, reading usable settings anew comes to what finding the
project with them comes to. -/
theorem attach_like_onSettingsChanged {id : Handle} (same : SameFiles s f)
    (found : s.project.root = some root) (unset : s.project.locale = none)
    (declares : s.Declares root settings) (blank : f.project = {}) (free : id ∉ f.attached)
    (finds : f.Finds id root) (run : onSettingsChanged s = .ok u s') :
    ∃ f', attach id f = .ok true f' ∧ SameWatches s' f' := by
  rw [onSettingsChanged_eq found declares] at run
  obtain ⟨_, s₁, loaded, run⟩ := bind_ok.1 run
  obtain ⟨_, s₂, watched, drawn⟩ := bind_ok.1 run
  have declares' : f.Declares root settings := (same.loadSettings root).trans declares
  obtain ⟨b, isOpen, named, source, search⟩ := finds
  obtain ⟨e, discovers⟩ := discoverProject_eq search declares'
  have rooted : SameFiles s (f.rootedAt root) := ⟨same.options, same.workspace⟩
  have unset' : (f.rootedAt root).project.locale = s.project.locale := by
    rw [unset, rootedAt, blank]
  obtain ⟨f₁, applied, same₁⟩ :=
    (rooted.adopting found.symm unset' settings).loads (bind_ok.2 ⟨_, s₁, loaded, watched⟩)
  rw [← applySettings_eq] at applied
  have discovered : discoverProject (Path.parse b.path) f =
      .ok () { f₁ with events := e :: f₁.events } := by
    rw [discovers, bind_of_ok applied]
    rfl
  have rootless : f.project.root = none := by rw [blank]
  obtain ⟨f', attached, kept⟩ :=
    attach_of_discovered free isOpen named source rootless discovered
  exact ⟨f', attached, same₁.of_fileSide (updateAll_keeps_files.ok drawn) kept⟩

/-! ## Before a project is found -/

/-- Nothing is known of a project, and nothing is watched. -/
structure Unaware (s : Session τ) : Prop where
  settings : s.project.settings = none
  messages : s.project.messages = ∅
  watches : s.watcher.watches = []

theorem Unaware.of_fileSide (unaware : Unaware s) (same : fileSide s' = fileSide s) :
    Unaware s' := by
  have project : s'.project = s.project := congrArg FileSide.project same
  have watcher : s'.watcher = s.watcher := congrArg FileSide.watcher same
  refine ⟨?_, ?_, ?_⟩
  · rw [project, unaware.settings]
  · rw [project, unaware.messages]
  · rw [watcher, unaware.watches]

theorem IsNew.unaware (new : IsNew s) : Unaware s := by
  refine ⟨?_, ?_, ?_⟩
  · rw [new.project]
  · rw [new.project]
  · rw [new.watcher]

theorem root_unread : Unread fun s : Session τ => s.project.root :=
  ⟨fun keeps => keeps.comp EditorSide.root⟩

theorem updateAll_keeps_root :
    Keeps (fun s : Session τ => s.project.root) (updateAll : SessionOperation τ Unit) :=
  updateAll_keeps_files.comp fun files => files.project.root

/-- An operation that does not find a project leaves a session that knows none without one. -/
def StaysUnaware {α : Type} (x : SessionOperation τ α) : Prop :=
  ∀ s, Unaware s → s.project.root = none →
    Unaware (leaves x s) ∨ (leaves x s).project.root.isSome = true

theorem StaysUnaware.of_files {α : Type} {x : SessionOperation τ α} (keeps : Keeps fileSide x) :
    StaysUnaware x :=
  fun s unaware _ => .inl (unaware.of_fileSide (keeps s))

theorem StaysUnaware.answer {α β : Type} {x : SessionOperation τ α} (stays : StaysUnaware x)
    (g : α → β) : StaysUnaware (x >>= fun a => pure (g a)) := by
  intro s unaware rootless
  rw [leaves_answer]
  exact stays s unaware rootless

/-- Without settings there is no locale to load. -/
theorem loadAllLocales_unaware (unaware : Unaware s) : loadAllLocales s = .ok () s := by
  have undetected : ¬ (projectPart.get s).isDetected = true := by
    show ¬ (s.project.root.isSome && s.project.settings.isSome) = true
    simp [unaware.settings]
  rw [loadAllLocales, bind_of_ok (read_ok.2 ⟨rfl, rfl⟩), if_neg undetected]
  rfl

theorem onMessageFileChanged_unaware (unaware : Unaware s) (locale : String) :
    onMessageFileChanged locale s = .ok () s := by
  have undetected : ¬ (projectPart.get s).isDetected = true := by
    show ¬ (s.project.root.isSome && s.project.settings.isSome) = true
    simp [unaware.settings]
  rw [onMessageFileChanged, bind_of_ok (read_ok.2 ⟨rfl, rfl⟩), if_neg undetected]
  rfl

theorem onSettingsChanged_rootless (rootless : s.project.root = none) :
    onSettingsChanged s = .ok () s := by
  obtain ⟨_, _, _, ⟨root, _, _, _⟩, _, _, _, _, _, _⟩ := s
  cases rootless
  rfl

theorem poll_unaware (unaware : Unaware s) : poll s = .ok [] s := by
  have none : ((watchOwner call).watcher.get s).watches = [] := unaware.watches
  rw [poll, WatchOwner.poll, bind_of_ok (read_ok.2 ⟨rfl, rfl⟩), none]
  rfl

theorem refresh_staysUnaware : StaysUnaware (refresh : SessionOperation τ Unit) := by
  intro s unaware rootless
  have ends : refresh s = (do
      updateAll
      log .info "Lazy Watson translations refreshed" : SessionOperation τ Unit) s := by
    obtain ⟨_, _, _, ⟨root, settings, _, messages⟩, _, _, _, _, _, _⟩ := s
    cases rootless
    cases unaware.settings
    cases unaware.messages
    rfl
  left
  rw [leaves, ends]
  exact unaware.of_fileSide (updateAll_log_keeps_files _ s)

theorem selectLocale_staysUnaware (locale : String) :
    StaysUnaware (selectLocale locale : SessionOperation τ Bool) := by
  intro s unaware _
  have unset : (projectPart.get s).settings.isNone = true := by
    rw [Option.isNone_iff_eq_none]
    exact unaware.settings
  have refuses : selectLocale locale s = refuseLocale (quoted locale) s := by
    rw [selectLocale, bind_of_ok (read_ok.2 ⟨rfl, rfl⟩), if_pos (.inl unset)]
  left
  rw [leaves, refuses]
  exact unaware.of_fileSide (refuseLocale_keeps emit_keeps_files _ s)

/-- The search for a project leaves everything as it is unless it finds a root, which then stays,
whatever becomes of the rest. -/
theorem discoverProject_leaves (file : Path) (s : Session τ) :
    leaves (discoverProject file) s = s ∨
      (leaves (discoverProject file) s).project.root.isSome = true := by
  rw [discoverProject_settles, leaves_bind_of_ok (get_ok.2 ⟨rfl, rfl⟩)]
  cases findProjectRoot s.workspace file s.options.marker with
  | error e => exact .inl rfl
  | ok found =>
    cases found with
    | none => exact .inl rfl
    | some root =>
      right
      have kept := root_unread.reading (settle_keeps_editor root)
        { s with project := { s.project with root := some root } }
      exact congrArg Option.isSome kept

/-- Attaching a buffer does nothing to the project unless it finds one. -/
theorem attach_leaves (id : Handle) (s : Session τ) :
    fileSide (leaves (attach id) s) = fileSide s ∨
      s.project.root = none ∧ (leaves (attach id) s).project.root.isSome = true := by
  have ending : Keeps fileSide (do
      modify fun s => { s with attached := s.attached ++ [id] }
      if (← get).enabled then updateBuffer id
      return true : SessionOperation τ Bool) :=
    Keeps.bind (Keeps.modify fun _ => rfl) fun _ => Keeps.get.bind fun _ =>
      Keeps.ite ((updateBuffer_keeps_files id).bind fun _ => Keeps.pure _) (Keeps.pure _)
  rw [attach, leaves_bind_of_ok (get_ok.2 ⟨rfl, rfl⟩), leaves_ite]
  split
  · exact .inl rfl
  cases isOpen : s.host.buffers.get? id with
  | none =>
    left
    rw [leaves, bind_error.2 (.inl (buffer_error.2 ⟨isOpen, rfl, rfl⟩))]
  | some b =>
    rw [leaves_bind_of_ok (buffer_ok.2 ⟨isOpen, rfl⟩), leaves_ite]
    split
    · exact .inl rfl
    rw [leaves_bind_of_ok (read_ok.2 ⟨rfl, rfl⟩), leaves_ite]
    split
    · rename_i rootless
      have kept := Keeps.after (fun _ => ending) (discoverProject (Path.parse b.path)) s
      rw [kept]
      obtain same | found := discoverProject_leaves (Path.parse b.path) s
      · rw [same]
        exact .inl rfl
      · refine .inr ⟨Option.isNone_iff_eq_none.1 rootless, ?_⟩
        have project := congrArg FileSide.project kept
        exact (congrArg (·.root.isSome) project).trans found
    · exact .inl (ending s)

variable [Instant τ]

/-- The root of a project stays once there is one. -/
theorem perform_root (step : SessionStep) (s : Session τ) :
    (leaves (perform step) s).project.root = s.project.root ∨ s.project.root = none := by
  by_cases consults : Consults step
  · have others (collective : Collective step) :
        (leaves (perform step) s).project.root = s.project.root ∨ s.project.root = none :=
      .inl (root_unread.perform updateAll_keeps_root (fun keeps => keeps.comp (·.project.root))
        (fun _ _ => rfl) collective s)
    cases step with
    | attach id =>
      rw [perform, leaves_answer]
      obtain same | ⟨rootless, -⟩ := attach_leaves id s
      · exact .inl (congrArg (·.project.root) same)
      · exact .inr rootless
    | close => exact .inl rfl
    | refresh | selectLocale | loadAllLocales | messageFileChanged => exact others trivial
    | settingsChanged | poll | change => exact others trivial
    | _ => exact consults.elim
  · exact .inl (congrArg (·.project.root) (perform_keeps_files consults s))

theorem perform_staysUnaware (step : SessionStep) :
    StaysUnaware (perform step : SessionOperation τ SessionAnswer) := by
  cases step with
  | attach id =>
    refine StaysUnaware.answer (fun s unaware _ => ?_) _
    exact (attach_leaves id s).imp unaware.of_fileSide And.right
  | refresh => exact refresh_staysUnaware.answer _
  | selectLocale locale => exact (selectLocale_staysUnaware locale).answer _
  | loadAllLocales =>
    refine StaysUnaware.answer (fun s unaware _ => .inl ?_) _
    rw [leaves_ok (loadAllLocales_unaware unaware)]
    exact unaware
  | messageFileChanged locale =>
    refine StaysUnaware.answer (fun s unaware _ => .inl ?_) _
    rw [leaves_ok (onMessageFileChanged_unaware unaware locale)]
    exact unaware
  | settingsChanged =>
    refine StaysUnaware.answer (fun s unaware rootless => .inl ?_) _
    rw [leaves_ok (onSettingsChanged_rootless rootless)]
    exact unaware
  | close => exact fun s unaware _ => .inl ⟨unaware.settings, unaware.messages, rfl⟩
  | poll =>
    refine StaysUnaware.answer (fun s unaware _ => .inl ?_) _
    rw [leaves_ok (poll_unaware unaware)]
    exact unaware
  | change c =>
    have keeps : Keeps (fun s : Session τ => (s.project, s.watcher)) (changeFiles c) :=
      changeFiles_keeps (fun _ _ => rfl) c
    refine StaysUnaware.answer (fun s unaware _ => .inl ?_) _
    have same := keeps s
    rw [Prod.mk.injEq] at same
    refine ⟨?_, ?_, ?_⟩
    · rw [same.1, unaware.settings]
    · rw [same.1, unaware.messages]
    · rw [same.2, unaware.watches]
  | _ => exact .of_files (perform_keeps_files id)

/-- A session that has not found a project knows nothing of one, and it watches nothing. -/
theorem unaware_of_rootless {steps : List SessionStep} (start : s.project.root = none → Unaware s)
    (rootless : (runSteps s steps).project.root = none) : Unaware (runSteps s steps) := by
  induction steps generalizing s with
  | nil => exact start rootless
  | cons step rest ih =>
    rw [runSteps_cons] at rootless ⊢
    refine ih (fun rootless' => ?_) rootless
    have before : s.project.root = none := by
      obtain same | rootless := perform_root step s
      · rw [← same, rootless']
      · exact rootless
    obtain unaware | found := perform_staysUnaware step s (start before) before
    · exact unaware
    · rw [rootless'] at found
      cases found

/-! ## Histories -/

variable {s₀ t₀ : Session τ} {steps more : List SessionStep} {answer : SessionAnswer}

/-- Reading the settings anew comes to the same settings, messages, displayed locale and watches
whatever the history of the session, if the root, the displayed locale and the files are the same
before; and it succeeds after one history if it does after the other. If no locale has been
displayed and the settings can be used, a session that finds the project comes to the same when it
attaches its first buffer. -/
theorem settingsChanged_forgets (new : IsNew s₀) (new' : IsNew t₀)
    (same : SameFiles (runSteps s₀ steps) (runSteps t₀ more))
    (root : (runSteps t₀ more).project.root = (runSteps s₀ steps).project.root)
    (locale : (runSteps t₀ more).project.locale = (runSteps s₀ steps).project.locale)
    (changed : perform .settingsChanged (runSteps s₀ steps) = .ok answer s') :
    (∃ t', perform .settingsChanged (runSteps t₀ more) = .ok answer t' ∧ SameWatches s' t') ∧
    ∀ root settings f id, (runSteps s₀ steps).project.root = some root →
      (runSteps s₀ steps).project.locale = none → (runSteps s₀ steps).Declares root settings →
      IsNew f → SameFiles (runSteps s₀ steps) f → f.Finds id root →
        ∃ f', perform (.attach id) f = .ok (.flag true) f' ∧ SameWatches s' f' := by
  obtain ⟨_, s₁, reading, answered⟩ := bind_ok.1 changed
  obtain ⟨rfl, rfl⟩ := pure_ok.1 answered
  constructor
  · cases found : (runSteps s₀ steps).project.root with
    | some root' =>
      obtain ⟨t', reading', alike⟩ := onSettingsChanged_forgets same found root locale reading
      exact ⟨t', bind_ok.2 ⟨_, t', reading', rfl⟩, alike⟩
    | none =>
      have rootless := root.trans found
      have unaware := unaware_of_rootless (fun _ => new.unaware) found
      have unaware' := unaware_of_rootless (fun _ => new'.unaware) rootless
      rw [onSettingsChanged_rootless found] at reading
      cases reading
      refine ⟨_, bind_ok.2 ⟨_, _, onSettingsChanged_rootless rootless, rfl⟩, ⟨same, ?_⟩, ?_⟩
      · rw [ProjectState.mk.injEq]
        exact ⟨root, unaware'.settings.trans unaware.settings.symm, locale,
          unaware'.messages.trans unaware.messages.symm⟩
      · rw [Watcher.layout, Watcher.layout, unaware.watches, unaware'.watches]
  · intro root' settings f id found unset declares fresh alike finds
    have free : id ∉ f.attached := by
      rw [fresh.attached]
      exact List.not_mem_nil
    obtain ⟨f', attached, agree⟩ :=
      attach_like_onSettingsChanged alike found unset declares fresh.project free finds reading
    exact ⟨f', bind_ok.2 ⟨true, f', attached, rfl⟩, agree⟩

/-- A buffer is attached while the settings file is empty, and then the file is repaired. -/
def repairedOnce : List SessionStep :=
  [writeSettings [] none, .openBuffer "/p/a.ts" (some "m.k()"), .attach (.number 1),
    writeSettings nestedProject.settings.toUTF8.toList (some 2)]

/-- Another buffer is attached while the settings file is malformed, which it stays for a while. -/
def repairedLater : List SessionStep :=
  [.openBuffer "/p/b.ts" (some ""), writeSettings [0] none, .attach (.number 1), .refresh,
    .advance 10, writeSettings [0, 0] none, .poll,
    writeSettings nestedProject.settings.toUTF8.toList (some 2)]

/-- A session that is created when a buffer is open. -/
def besideBuffer (disk : Disk) (path text : String) : Session Int :=
  { onDisk disk with host := (({} : Host).openBuffer path text).2 }

theorem besideBuffer_isNew (disk : Disk) (path text : String) :
    IsNew (besideBuffer disk path text) := by
  have only (id : Handle) (b : Buffer)
      (isOpen : (besideBuffer disk path text).host.buffers.get? id = some b) :
      id = .number 1 ∧ b = { path := path, text := text } := by
    have set : (besideBuffer disk path text).host.buffers.get? id =
        if id = .number 1 then some { path := path, text := text } else none :=
      Table.get?_set ..
    rw [set] at isOpen
    split at isOpen
    · exact ⟨‹_›, (Option.some.inj isOpen).symm⟩
    · cases isOpen
  refine ⟨rfl, rfl, rfl, rfl, fun id b isOpen => ?_, fun id b isOpen => ?_⟩
  · exact ⟨1, Nat.le_refl 1, (only id b isOpen).1⟩
  · rw [(only id b isOpen).2]
    rfl

theorem settingsChanged_forgets_repaired :
    (onDisk nestedProject).IsNew ∧
    SameFiles (runSteps (onDisk nestedProject) repairedOnce)
      (runSteps (onDisk nestedProject) repairedLater) ∧
    (runSteps (onDisk nestedProject) repairedLater).project.root =
      (runSteps (onDisk nestedProject) repairedOnce).project.root ∧
    (runSteps (onDisk nestedProject) repairedLater).project.locale =
      (runSteps (onDisk nestedProject) repairedOnce).project.locale ∧
    ∃ s' t' f', perform .settingsChanged (runSteps (onDisk nestedProject) repairedOnce) =
        .ok .nothing s' ∧
      perform .settingsChanged (runSteps (onDisk nestedProject) repairedLater) = .ok .nothing t' ∧
      SameWatches s' t' ∧
      perform (.attach (.number 1)) (besideBuffer
        (runSteps (onDisk nestedProject) repairedOnce).workspace.disk "/p/a.ts" "") =
          .ok (.flag true) f' ∧
      SameWatches s' f' := by
  have new := onDisk_isNew nestedProject
  obtain ⟨options, workspace, found, found', unset, unset'⟩ :
      (runSteps (onDisk nestedProject) repairedLater).options =
        (runSteps (onDisk nestedProject) repairedOnce).options ∧
      (runSteps (onDisk nestedProject) repairedLater).workspace =
        (runSteps (onDisk nestedProject) repairedOnce).workspace.written
          (runSteps (onDisk nestedProject) repairedLater).workspace.writes ∧
      (runSteps (onDisk nestedProject) repairedOnce).project.root = some ⟨.root, ["p"]⟩ ∧
      (runSteps (onDisk nestedProject) repairedLater).project.root = some ⟨.root, ["p"]⟩ ∧
      (runSteps (onDisk nestedProject) repairedOnce).project.locale = none ∧
      (runSteps (onDisk nestedProject) repairedLater).project.locale = none := by
    decide +kernel
  obtain ⟨read, t, reading, usable⟩ := ok_of_succeedsWith (x := readSettings ⟨.root, ["p"]⟩)
    (s := runSteps (onDisk nestedProject) repairedOnce)
    (p := fun read _ => read = some ⟨"en", ["en"], "en.json"⟩) (by decide +kernel)
  obtain ⟨events, -, declares⟩ := readSettings_declares reading
  obtain ⟨answer, s', changed, answered⟩ := ok_of_succeedsWith (x := perform .settingsChanged)
    (s := runSteps (onDisk nestedProject) repairedOnce)
    (p := fun answer _ => answer = .nothing) (by decide +kernel)
  obtain rfl := of_decide_eq_true answered
  have same : SameFiles (runSteps (onDisk nestedProject) repairedOnce) (besideBuffer
      (runSteps (onDisk nestedProject) repairedOnce).workspace.disk "/p/a.ts" "") := by
    refine ⟨?_, ?_⟩
    · decide +kernel
    · decide +kernel
  have finds : Finds
      (besideBuffer (runSteps (onDisk nestedProject) repairedOnce).workspace.disk "/p/a.ts" "")
      (.number 1) ⟨.root, ["p"]⟩ := by
    refine ⟨{ path := "/p/a.ts", text := "" }, rfl, ?_, ?_, ?_⟩
    · decide
    · decide +kernel
    · decide +kernel
  have root := found'.trans found.symm
  have locale := unset'.trans unset.symm
  obtain ⟨⟨t', changed', alike⟩, attaches⟩ :=
    settingsChanged_forgets new new ⟨options, workspace⟩ root locale changed
  obtain ⟨f', attached, alike'⟩ := attaches _ _ _ _ found unset
    ((declares _).1 (of_decide_eq_true usable)) (besideBuffer_isNew ..) same finds
  exact ⟨new, ⟨options, workspace⟩, root, locale, s', t', f', changed, changed', alike, attached,
    alike'⟩

end Session

end MessageLens
