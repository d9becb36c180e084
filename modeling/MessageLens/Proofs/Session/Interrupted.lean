import MessageLens.Proofs.Session.Failing

/-!
# Loading that fails

An operation that cannot load the messages of a locale stops there. It has not come to the watches
by then, and of the project it leaves what it has settled so far: the root it has found, the
settings it has read, the locale to display, and the messages of the locales before.
-/

namespace MessageLens
set_option autoImplicit false

open Operation

namespace Session

variable {τ α : Type} {s s' t : Session τ} {u : Unit} {e : SessionFailure} {c : LoadError}
  {root : Path} {settings : ProjectSettings} {locale : String} {w : Workspace}

/-! ## The locales before the one that fails -/

/-- The messages are those of the locales before one whose messages cannot be loaded. -/
def LoadedUpTo (w : Workspace) (root : Path) (settings : ProjectSettings) (c : LoadError)
    (messages : Catalog) : Prop :=
  ∃ done bad rest, settings.locales = done ++ bad :: rest ∧
    loadMessages w root settings.pathPattern bad = .error c ∧
    (∀ locale ∈ done, ∃ texts records,
      loadMessages w root settings.pathPattern locale = .ok (texts, records) ∧
        messages.get? locale = some texts) ∧
    ∀ locale, locale ∉ done → messages.get? locale = none

/-- Messages that cannot be loaded change nothing. -/
theorem loadLocale_failed (run : loadLocale locale s = .error (.messages c) s') :
    s' = s ∧ ∃ root settings, s.project.root = some root ∧ s.project.settings = some settings ∧
      loadMessages s.workspace root settings.pathPattern locale = .error c := by
  simp only [loadLocale, bind_error, get_error, get_ok, exists_both_eq, false_or] at run
  cases found : s.project.root with
  | none => simp [found] at run
  | some root =>
    cases usable : s.project.settings with
    | none => simp [found, usable] at run
    | some settings =>
      simp only [found, usable] at run
      have unread := Avoids.first (fun loaded =>
        (Avoids.forM (fun _ => Avoids.modify _) _).bind fun _ => Avoids.change _ _) run
      obtain ⟨c', broken, cause, same⟩ := attempt_error unread
      cases cause
      exact ⟨same, root, settings, rfl, rfl, broken⟩

theorem forM_loadLocale_failed {locales : List String} (found : s.project.root = some root)
    (usable : s.project.settings = some settings)
    (run : locales.forM loadLocale s = .error (.messages c) s') :
    ∃ done bad rest, locales = done ++ bad :: rest ∧ done.forM loadLocale s = .ok () s' ∧
      loadMessages s.workspace root settings.pathPattern bad = .error c := by
  induction locales generalizing s with
  | nil => exact (forM_nil_error.1 run).elim
  | cons locale rest ih =>
    obtain here | ⟨t, first, later⟩ := forM_cons_error.1 run
    · obtain ⟨rfl, root', settings', found', usable', broken⟩ := loadLocale_failed here
      obtain rfl := Option.some.inj (found.symm.trans found')
      obtain rfl := Option.some.inj (usable.symm.trans usable')
      exact ⟨[], locale, rest, rfl, forM_nil_ok.2 rfl, broken⟩
    · obtain ⟨_, _, _, _, -, -, -, outside⟩ := loadLocale_ok first
      have found' : t.project.root = some root := by rw [outside]; exact found
      have usable' : t.project.settings = some settings := by rw [outside]; exact usable
      obtain ⟨done, bad, rest', split, loaded, broken⟩ := ih found' usable' later
      have workspace : t.workspace = s.workspace := by rw [outside]
      rw [workspace] at broken
      exact ⟨locale :: done, bad, rest', by rw [split]; rfl, forM_cons_ok.2 ⟨t, first, loaded⟩,
        broken⟩

/-- Loading leaves the messages of other locales alone. -/
theorem forM_loadLocale_others {locales : List String} (other : locale ∉ locales)
    (run : locales.forM loadLocale s = .ok u s') :
    s'.project.messages.get? locale = s.project.messages.get? locale := by
  induction locales generalizing s with
  | nil =>
    obtain rfl := forM_nil_ok.1 run
    rfl
  | cons first rest ih =>
    obtain ⟨t, loaded, later⟩ := forM_cons_ok.1 run
    obtain ⟨_, _, messages, _, -, -, -, outside⟩ := loadLocale_ok loaded
    rw [ih (fun mem => other (List.mem_cons_of_mem first mem)) later, outside]
    have apart : locale ≠ first := fun same => other (List.mem_cons.2 (.inl same))
    exact Table.get?_set_ne _ apart _

/-- An operation has stopped at messages that cannot be loaded, with that root, those settings and
that locale settled. -/
structure Interrupted (s : Session τ) (root : Path) (settings : ProjectSettings)
    (locale : Option String) (c : LoadError) (s' : Session τ) : Prop where
  outside : s' = { s with project := s'.project, events := s'.events }
  found : s'.project.root = some root
  usable : s'.project.settings = some settings
  shown : s'.project.locale = locale
  messages : LoadedUpTo s.workspace root settings c s'.project.messages

/-- What is settled of the project before, and what is logged, does not matter. -/
theorem Interrupted.of_start {shown : Option String}
    (stopped : Interrupted t root settings shown c s')
    (same : t = { s with project := t.project, events := t.events }) :
    Interrupted s root settings shown c s' := by
  have workspace : t.workspace = s.workspace := by rw [same]
  refine ⟨stopped.outside.trans (by rw [same]), stopped.found, stopped.usable, stopped.shown, ?_⟩
  rw [← workspace]
  exact stopped.messages

theorem loadAllLocales_interrupted (bare : s.project.messages = ∅)
    (run : loadAllLocales s = .error (.messages c) s') :
    ∃ root settings, s.project.root = some root ∧ s.project.settings = some settings ∧
      Interrupted s root settings s.project.locale c s' := by
  simp only [loadAllLocales, bind_error, read_error, read_ok, exists_both_eq, false_or,
    ite_error, pure_error, and_false, or_false] at run
  obtain ⟨detected, unread⟩ := run
  rw [ProjectState.isDetected, Bool.and_eq_true] at detected
  obtain ⟨root, found⟩ := Option.isSome_iff_exists.1 detected.1
  obtain ⟨settings, usable⟩ := Option.isSome_iff_exists.1 detected.2
  have locales : (projectPart.get s).locales = settings.locales := by
    rw [ProjectState.locales, usable]
    rfl
  rw [locales] at unread
  obtain ⟨done, bad, rest, split, loaded, broken⟩ := forM_loadLocale_failed found usable unread
  obtain ⟨loads, fresh⟩ := forM_loadLocale_loads loaded
  have found' : s'.project.root = some root := by rw [loads.outside]; exact found
  have usable' : s'.project.settings = some settings := by rw [loads.outside]; exact usable
  have shown : s'.project.locale = s.project.locale := by rw [loads.outside]
  have workspace : s'.workspace = s.workspace := by rw [loads.outside]
  refine ⟨root, settings, found, usable, ?_, found', usable', shown, done, bad, rest, split, broken,
    fun locale mem => ?_, fun locale other => ?_⟩
  · rw [loads.outside]
  · obtain ⟨texts, records, load, held⟩ := fresh locale mem root settings found' usable'
    exact ⟨texts, records, workspace ▸ load, held⟩
  · rw [forM_loadLocale_others other loaded, bare]
    rfl

/-! ## Settings -/

/-- The session with the root of a project found. -/
def rootedAt (s : Session τ) (root : Path) : Session τ :=
  { s with project := { s.project with root := some root } }

theorem watchSettingsFile_error (run : watchSettingsFile s = .error e s') : ∃ c, e = .file c := by
  simp only [watchSettingsFile, bind_error, change_error, change_ok, exists_unit_eq, get_error,
    get_ok, exists_both_eq, false_or] at run
  have same : (watcherPart.put s (watcherPart.get s).clear).project.root = s.project.root := rfl
  rw [same] at run
  cases found : s.project.root with
  | none =>
    simp only [found] at run
    exact (pure_error.1 run).elim
  | some root =>
    simp only [found] at run
    obtain ⟨c, -, cause, -⟩ := watch_error run
    exact ⟨c, cause⟩

theorem setUpWatches_error (run : setUpWatches s = .error e s') : ∃ c, e = .file c := by
  simp only [setUpWatches, bind_error, read_error, read_ok, exists_both_eq, false_or] at run
  obtain unwatched | ⟨_, t, -, later⟩ := run
  · exact watchSettingsFile_error unwatched
  · cases found : (projectPart.get t).root with
    | none => simp only [found, pure_error] at later
    | some root =>
      cases usable : (projectPart.get t).settings with
      | none => simp only [found, usable, pure_error] at later
      | some settings =>
        simp only [found, usable] at later
        exact (forM_watchLocale_error later).1

theorem applySettings_interrupted (found : s.project.root = some root)
    (run : applySettings settings s = .error (.messages c) s') :
    Interrupted s root settings (some (settings.displayed s.project.locale)) c s' := by
  rw [applySettings_eq, bind_error] at run
  obtain unread | ⟨_, t, -, unwatched⟩ := run
  · obtain ⟨root', settings', found', usable', stopped⟩ :=
      loadAllLocales_interrupted (by rfl) unread
    obtain rfl : root = root' := Option.some.inj (found.symm.trans found')
    obtain rfl : settings = settings' := Option.some.inj usable'
    exact stopped.of_start rfl
  · obtain ⟨c', cause⟩ := setUpWatches_error unwatched
    cases cause

theorem readSettings_declares {read : Option ProjectSettings}
    (run : readSettings root s = .ok read t) :
    ∃ events, t = { s with events := events } ∧
      ∀ settings, read = some settings ↔ s.Declares root settings := by
  obtain ⟨loaded, events, current, rfl, rfl⟩ := readSettings_ok run
  refine ⟨events, rfl, fun settings => ?_⟩
  rw [Declares, current]
  cases loaded <;> simp [Except.toOption]

/-- Settings are read without reading messages. -/
theorem readSettings_avoids :
    Avoids (.messages c) (readSettings root : SessionOperation τ (Option ProjectSettings)) := by
  intro s s' run
  obtain ⟨c', -, cause, -⟩ := readSettings_error run
  cases cause

theorem readSettings_eq (declares : s.Declares root settings) :
    readSettings root s = (pure (some settings) : SessionOperation τ _) s := by
  show (attempt .file (loadSettings s.workspace root s.options.marker) >>= _) s = _
  rw [declares]
  rfl

/-! ## Operations -/

theorem discoverProject_interrupted {file : Path}
    (run : discoverProject file s = .error (.messages c) s') :
    ∃ root settings, findProjectRoot s.workspace file s.options.marker = .ok (some root) ∧
      s.Declares root settings ∧
      Interrupted s root settings (some (settings.displayed s.project.locale)) c s' := by
  simp only [discoverProject, bind_error, get_error, get_ok, exists_both_eq, false_or] at run
  obtain unsearched | ⟨search, t, searched, run⟩ := run
  · obtain ⟨c', -, cause, -⟩ := attempt_error unsearched
    cases cause
  cases found : findProjectRoot s.workspace file s.options.marker with
  | error c' => rw [found] at searched; exact (throw_ok.1 searched).elim
  | ok search' =>
    rw [found] at searched
    obtain ⟨rfl, rfl⟩ := pure_ok.1 searched
    cases search' with
    | none => exact (pure_error.1 run).elim
    | some root =>
      obtain ⟨_, t, rooted, run⟩ := (Avoids.change _ _).later run
      obtain rfl := change_ok.1 rooted
      obtain ⟨read, t, reading, run⟩ := readSettings_avoids.later run
      obtain ⟨events, rfl, declares⟩ := readSettings_declares reading
      cases read with
      | none =>
        obtain ⟨c', cause⟩ := watchSettingsFile_error run
        cases cause
      | some settings =>
        have unapplied := Avoids.first (fun _ => Avoids.modify _) run
        have stopped := applySettings_interrupted (by rfl) unapplied
        exact ⟨root, settings, rfl, (declares settings).1 rfl, stopped.of_start rfl⟩

/-- Only the search for the project loads messages when a buffer is attached. -/
theorem attach_interrupted {id : Handle} (run : attach id s = .error (.messages c) s') :
    s.project.root = none ∧ ∃ b root settings, s.host.buffers.get? id = some b ∧
      findProjectRoot s.workspace (Path.parse b.path) s.options.marker = .ok (some root) ∧
      s.Declares root settings ∧
      Interrupted s root settings (some (settings.displayed s.project.locale)) c s' := by
  have draws (t : Session τ) : updateBuffer id t = .error (.messages c) s' ↔ False :=
    iff_of_false (updateBuffer_avoids id t s') not_false
  simp only [attach, bind_error, get_error, get_ok, exists_both_eq, false_or, ite_error, pure_error,
    buffer_error, buffer_ok, read_error, read_ok, modify_error, draws, and_false, or_false,
    exists_false, reduceCtorEq, false_and] at run
  obtain ⟨-, b, t, ⟨isOpen, rfl⟩, -, rootless, undiscovered⟩ := run
  obtain ⟨root, settings, found, declares, stopped⟩ := discoverProject_interrupted undiscovered
  exact ⟨Option.isNone_iff_eq_none.1 rootless, b, root, settings, isOpen, found, declares, stopped⟩

theorem refresh_interrupted (run : refresh s = .error (.messages c) s') :
    ∃ root settings, s.project.root = some root ∧
      (s.project.settings = some settings ∧
        Interrupted s root settings s.project.locale c s' ∨
      s.project.settings = none ∧ s.Declares root settings ∧
        Interrupted s root settings (some (settings.displayed s.project.locale)) c s') := by
  have finish : Avoids (.messages c) (do
      updateAll
      log .info "Lazy Watson translations refreshed" : SessionOperation τ Unit) :=
    updateAll_avoids.bind fun _ => Avoids.modify _
  simp only [refresh, bind_error, read_error, read_ok, exists_both_eq, false_or] at run
  generalize project : projectPart.get s = p at run
  split at run
  · rename_i root _ _
    have found : s.project.root = some root := congrArg ProjectState.root project
    obtain ⟨read, t, reading, run⟩ := readSettings_avoids.later run
    obtain ⟨events, rfl, declares⟩ := readSettings_declares reading
    cases read with
    | none => exact absurd run (finish _ _)
    | some settings =>
      have unapplied := Avoids.first (fun _ => finish) run
      have stopped := applySettings_interrupted (by exact found) unapplied
      exact ⟨root, settings, found, .inr ⟨congrArg ProjectState.settings project,
        (declares settings).1 rfl, stopped.of_start rfl⟩⟩
  · obtain ⟨_, t, dropped, run⟩ := (Avoids.change _ _).later run
    obtain rfl := change_ok.1 dropped
    have unread := Avoids.first (fun _ => finish) run
    obtain ⟨root, settings, found, usable, stopped⟩ := loadAllLocales_interrupted (by rfl) unread
    exact ⟨root, settings, found, .inl ⟨usable, stopped.of_start rfl⟩⟩

/-- A locale is displayed before its messages are asked for. -/
theorem selectLocale_interrupted (run : selectLocale locale s = .error (.messages c) s') :
    ∃ root settings, s.project.root = some root ∧ s.project.settings = some settings ∧
      locale ∈ settings.locales ∧ s.project.messages.get? locale = none ∧
      loadMessages s.workspace root settings.pathPattern locale = .error c ∧
      s' = { s with project := { s.project with locale := some locale } } := by
  have finish : Avoids (.messages c) (do
      updateAll
      log .info ("Locale set to: " ++ locale)
      return true : SessionOperation τ Bool) :=
    updateAll_avoids.bind fun _ => (Avoids.modify _).bind fun _ => Avoids.pure _
  have refusal : Avoids (.messages c) (refuseLocale (quoted locale) : SessionOperation τ Bool) :=
    (Avoids.read _).bind fun _ => Avoids.ite ((Avoids.modify _).bind fun _ => Avoids.pure _)
      ((Avoids.modify _).bind fun _ => Avoids.pure _)
  obtain ⟨p, t, read, run⟩ := (Avoids.read _).later run
  obtain ⟨rfl, rfl⟩ := read_ok.1 read
  obtain ⟨-, refused⟩ | ⟨known, run⟩ := ite_error.1 run
  · exact absurd refused (refusal _ _)
  obtain ⟨_, t, chosen, run⟩ := (Avoids.change _ _).later run
  obtain rfl := change_ok.1 chosen
  obtain ⟨absent, run⟩ | ⟨-, finishing⟩ := ite_error.1 run
  · have unread := Avoids.first (fun _ => finish) run
    obtain ⟨same, root, settings, found, usable, broken⟩ := loadLocale_failed unread
    have listed : locale ∈ s.project.locales :=
      Classical.not_not.1 fun other => known (.inr other)
    have usable₀ : s.project.settings = some settings := usable
    rw [ProjectState.locales, usable₀] at listed
    have unheld : s.project.messages.get? locale = none := by
      simpa [Table.contains, projectPart] using absent
    exact ⟨root, settings, found, usable, listed, unheld, broken, same⟩
  · exact absurd finishing (finish _ _)

theorem onSettingsChanged_interrupted (run : onSettingsChanged s = .error (.messages c) s') :
    ∃ root settings, s.project.root = some root ∧ s.Declares root settings ∧
      Interrupted s root settings (some (settings.displayed s.project.locale)) c s' := by
  simp only [onSettingsChanged, bind_error, read_error, read_ok, exists_both_eq, false_or] at run
  cases found : s.project.root with
  | none =>
    simp only [projectPart, found, pure_error] at run
  | some root =>
    simp only [projectPart, found] at run
    obtain ⟨read, t, reading, run⟩ := readSettings_avoids.later run
    obtain ⟨events, rfl, declares⟩ := readSettings_declares reading
    cases read with
    | some settings =>
      have unapplied := Avoids.first (fun _ => updateAll_avoids) run
      have stopped := applySettings_interrupted (by exact found) unapplied
      exact ⟨root, settings, rfl, (declares settings).1 rfl, stopped.of_start rfl⟩
    | none =>
      obtain ⟨_, t, -, run⟩ := (Avoids.change _ _).later run
      have unwatched := Avoids.first (fun _ => updateAll_avoids) run
      obtain ⟨c', cause⟩ := watchSettingsFile_error unwatched
      cases cause

/-! ## Attaching that fails -/

/-- A project that is found with usable settings adopts them. -/
theorem discoverProject_eq {file : Path}
    (found : findProjectRoot s.workspace file s.options.marker = .ok (some root))
    (declares : s.Declares root settings) :
    ∃ e, discoverProject file s =
      (do applySettings settings; emit e : SessionOperation τ Unit) (s.rootedAt root) := by
  have search : (attempt .path (findProjectRoot s.workspace file s.options.marker) :
      SessionOperation τ (Option Path)) s = .ok (some root) s := by
    rw [found]
    rfl
  have read : readSettings root (s.rootedAt root) = .ok (some settings) (s.rootedAt root) :=
    readSettings_eq (by exact declares)
  rw [discoverProject, bind_of_ok (get_ok.2 ⟨rfl, rfl⟩), bind_of_ok search]
  exact ⟨_, bind_of_ok read _⟩

/-- Attaching a source file without knowing a project begins with the search for one. -/
theorem attach_eq {id : Handle} {b : Buffer} (free : id ∉ s.attached)
    (isOpen : s.host.buffers.get? id = some b) (named : b.path ≠ "")
    (source : isSourcePath (Path.parse b.path) = true) (rootless : s.project.root = none) :
    attach id s = (do
      discoverProject (Path.parse b.path)
      modify fun s => { s with attached := s.attached ++ [id] }
      if (← get).enabled then updateBuffer id
      return true : SessionOperation τ Bool) s := by
  have plain : ¬ (b.path = "" || !isSourcePath (Path.parse b.path)) = true := by
    simp [named, source]
  have unfound : (projectPart.get s).root.isNone = true := Option.isNone_iff_eq_none.2 rootless
  rw [attach, bind_of_ok (get_ok.2 ⟨rfl, rfl⟩), if_neg free, bind_of_ok (buffer_ok.2 ⟨isOpen, rfl⟩),
    if_neg plain, bind_of_ok (read_ok.2 ⟨rfl, rfl⟩), if_pos unfound]

section Stopping

variable {rest : List String} (listed : settings.locales = locale :: rest)

include listed

theorem loadAllLocales_stops (found : s.project.root = some root)
    (usable : s.project.settings = some settings)
    (broken : loadMessages s.workspace root settings.pathPattern locale = .error c) :
    loadAllLocales s = .error (.messages c) s := by
  have unread : loadLocale locale s = .error (.messages c) s := by
    simp only [loadLocale, bind_error, get_error, get_ok, exists_both_eq, false_or, found, usable,
      broken]
    exact .inl rfl
  have detected : (projectPart.get s).isDetected = true := by
    show (s.project.root.isSome && s.project.settings.isSome) = true
    rw [found, usable]
    rfl
  have locales : (projectPart.get s).locales = locale :: rest := by
    show (s.project.settings.map (·.locales)).getD [] = _
    rw [usable]
    exact listed
  simp only [loadAllLocales, bind_error, read_error, read_ok, exists_both_eq, false_or, detected,
    if_true, locales]
  exact forM_cons_error.2 (.inl unread)

theorem discoverProject_stops {file : Path}
    (found : findProjectRoot s.workspace file s.options.marker = .ok (some root))
    (declares : s.Declares root settings)
    (broken : loadMessages s.workspace root settings.pathPattern locale = .error c) :
    discoverProject file s = .error (.messages c) ((s.rootedAt root).adopting settings) := by
  obtain ⟨e, same⟩ := discoverProject_eq found declares
  rw [same]
  refine bind_error.2 (.inl ?_)
  rw [applySettings_eq]
  exact bind_error.2 (.inl (loadAllLocales_stops listed rfl rfl broken))

/-- A buffer in a project cannot be attached while the messages of its first locale cannot be
loaded. -/
theorem attach_stops {id : Handle} {b : Buffer} (free : id ∉ s.attached)
    (isOpen : s.host.buffers.get? id = some b) (named : b.path ≠ "")
    (source : isSourcePath (Path.parse b.path) = true) (rootless : s.project.root = none)
    (found : findProjectRoot s.workspace (Path.parse b.path) s.options.marker = .ok (some root))
    (declares : s.Declares root settings)
    (broken : loadMessages s.workspace root settings.pathPattern locale = .error c) :
    attach id s = .error (.messages c) ((s.rootedAt root).adopting settings) := by
  rw [attach_eq free isOpen named source rootless]
  exact bind_error.2 (.inl (discoverProject_stops listed found declares broken))

end Stopping

end Session

end MessageLens
