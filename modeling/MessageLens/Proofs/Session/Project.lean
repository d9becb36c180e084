import MessageLens.Proofs.Session.Failing
import MessageLens.Proofs.Session.Start

/-!
# The project stays coherent

What a session knows of its project hangs together: settings belong to a root, messages belong to
settings, and there are messages of every locale that the settings name. The root never changes, and
the settings file stays watched. Every operation upholds this, whether it succeeds or fails, unless
it fails because messages or the settings of a project just found cannot be read; and none of them
asks for the messages of a locale without a project.
-/

namespace MessageLens
set_option autoImplicit false

open Operation

/-- Settings are those of a root, there are no messages without settings, and with settings there
are messages of every locale. -/
structure ProjectState.Coherent (p : ProjectState) : Prop where
  rooted : p.settings.isSome = true → p.root.isSome = true
  bare : p.settings = none → p.messages = ∅
  loaded : ∀ settings, p.settings = some settings → ∀ locale ∈ settings.locales,
    p.messages.contains locale = true

theorem ProjectState.Coherent.drop (p : ProjectState) :
    Coherent { p with settings := none, messages := ∅ } := by
  refine ⟨fun usable => ?_, fun _ => rfl, fun settings usable => ?_⟩
  · cases usable
  · cases usable

namespace Session

variable {τ α β : Type} {s₀ s s' t : Session τ} {e : SessionFailure} {u : Unit} {root : Path}
  {settings : ProjectSettings} {locale : String}

/-- The settings file of the project is watched, once there is a project. -/
def Guarded (s : Session τ) : Prop :=
  ∀ root, s.project.root = some root → s.watcher.Watches (s.settingsFile root) .settings

/-- A step that leads from `s` to `s'` fails because messages cannot be read, or because the
settings of the project that it has found cannot. -/
def ReadingFails (s : Session τ) (e : SessionFailure) (s' : Session τ) : Prop :=
  (∃ c, e = .messages c) ∨
  ∃ root c, s.project.root = none ∧ s'.project.root = some root ∧ e = .file c ∧
    loadSettings s'.workspace root s'.options.marker = .error c

/-- Since `s₀` the options have stayed the same, and so has the root if there was one. -/
structure Tracks (s₀ s : Session τ) : Prop where
  options : s.options = s₀.options
  root : ∀ root, s₀.project.root = some root → s.project.root = some root

/-- Besides, the project is coherent and its settings file is watched if it was. -/
structure Holds (s₀ s : Session τ) : Prop extends Tracks s₀ s where
  coherent : s.project.Coherent
  guarded : s₀.Guarded → s.Guarded

theorem Holds.refl (coherent : s.project.Coherent) : Holds s s :=
  ⟨⟨rfl, fun _ found => found⟩, coherent, fun guarded => guarded⟩

theorem Tracks.of_same (tracks : Tracks s₀ s) (options : s'.options = s.options)
    (root : s'.project.root = s.project.root) : Tracks s₀ s' :=
  ⟨options.trans tracks.options, fun root' found => root.trans (tracks.root root' found)⟩

/-- What neither changes the project nor takes away a watch. -/
theorem Holds.of_same (holds : Holds s₀ s) (options : s'.options = s.options)
    (project : s'.project = s.project)
    (watches : ∀ p c, s.watcher.Watches p c → s'.watcher.Watches p c) : Holds s₀ s' := by
  have root : s'.project.root = s.project.root := congrArg ProjectState.root project
  refine ⟨holds.toTracks.of_same options root, project ▸ holds.coherent,
    fun guarded root' found => ?_⟩
  rw [settingsFile_congr options]
  exact watches _ _ (holds.guarded guarded root' (root ▸ found))

theorem Holds.of_fileSide (holds : Holds s₀ s) (same : fileSide s' = fileSide s) :
    Holds s₀ s' := by
  have watcher : s'.watcher = s.watcher := congrArg FileSide.watcher same
  exact holds.of_same (congrArg FileSide.options same) (congrArg FileSide.project same)
    fun _ _ watched => watcher ▸ watched

/-- From `s₀` on, a step has come to `s` and goes on with an operation. In the end the project is
coherent, and if the operation fails, then not for want of a project. -/
structure Upholds (s₀ s : Session τ) (x : SessionOperation τ α) : Prop where
  ok : ∀ a s', x s = .ok a s' → Holds s₀ s'
  failed : ∀ e s', x s = .error e s' → e ≠ .noProject ∧ (ReadingFails s₀ e s' ∨ Holds s₀ s')

namespace Upholds

variable {x y : SessionOperation τ α} {k : α → SessionOperation τ β}

/-- Until an operation is through, the project need not be coherent. -/
theorem after
    (failed : ∀ e s', x s = .error e s' → e ≠ .noProject ∧ (ReadingFails s₀ e s' ∨ Holds s₀ s'))
    (later : ∀ a t, x s = .ok a t → Upholds s₀ t (k a)) : Upholds s₀ s (x >>= k) := by
  constructor
  · intro b s' run
    obtain ⟨a, t, begun, rest⟩ := bind_ok.1 run
    exact (later a t begun).ok b s' rest
  · intro e s' run
    obtain here | ⟨a, t, begun, rest⟩ := bind_error.1 run
    · exact failed e s' here
    · exact (later a t begun).failed e s' rest

theorem bind (first : Upholds s₀ s x)
    (later : ∀ a t, x s = .ok a t → Holds s₀ t → Upholds s₀ t (k a)) :
    Upholds s₀ s (x >>= k) :=
  after first.failed fun a t begun => later a t begun (first.ok a t begun)

theorem pure (holds : Holds s₀ s) (a : α) :
    Upholds s₀ s (Pure.pure a : SessionOperation τ α) := by
  constructor
  · intro b s' run
    obtain ⟨-, rfl⟩ := pure_ok.1 run
    exact holds
  · intro e s' run
    exact (pure_error.1 run).elim

/-- Looking at a part of the session changes nothing. -/
theorem read_bind {γ : Type} {f : Focus (Session τ) γ} {k : γ → SessionOperation τ β}
    (later : Upholds s₀ s (k (f.get s))) : Upholds s₀ s (f.read >>= k) :=
  ⟨later.ok, later.failed⟩

theorem get_bind {k : Session τ → SessionOperation τ β} (later : Upholds s₀ s (k s)) :
    Upholds s₀ s (get >>= k) :=
  ⟨later.ok, later.failed⟩

theorem ite {p : Prop} [Decidable p] (hx : p → Upholds s₀ s x) (hy : ¬ p → Upholds s₀ s y) :
    Upholds s₀ s (if p then x else y) := by
  by_cases h : p
  · rw [if_pos h]; exact hx h
  · rw [if_neg h]; exact hy h

/-- What works on the side of the editor alone. -/
theorem of_files (holds : Holds s₀ s) (keeps : Keeps fileSide x) (avoids : Avoids .noProject x) :
    Upholds s₀ s x := by
  constructor
  · intro a s' run
    exact holds.of_fileSide (keeps.ok run)
  · intro e s' run
    refine ⟨?_, .inr (holds.of_fileSide (keeps.error run))⟩
    rintro rfl
    exact avoids s s' run

theorem forM {γ : Type} {f : γ → SessionOperation τ Unit} (holds : Holds s₀ s)
    (each : ∀ c t, Holds s₀ t → Upholds s₀ t (f c)) (cs : List γ) :
    Upholds s₀ s (cs.forM f) := by
  induction cs generalizing s with
  | nil => exact pure holds ()
  | cons c rest ih => exact (each c s holds).bind fun _ _ _ holds => ih holds

theorem answer (first : Upholds s₀ s x) (f : α → β) :
    Upholds s₀ s (x >>= fun a => Pure.pure (f a)) :=
  first.bind fun a _ _ holds => pure holds (f a)

end Upholds

/-! ## Reading upholds the project -/

/-- Loading all messages brings a project in order whose messages have been dropped. -/
theorem loadAllLocales_coherent
    (rooted : s.project.settings.isSome = true → s.project.root.isSome = true)
    (bare : s.project.settings = none → s.project.messages = ∅)
    (run : loadAllLocales s = .ok u s') : s'.project.Coherent := by
  obtain ⟨loads, fresh⟩ := loadAllLocales_loads run
  have root : s'.project.root = s.project.root := by rw [loads.outside]
  have settings : s'.project.settings = s.project.settings := by rw [loads.outside]
  refine ⟨fun usable => ?_, fun unusable => ?_, fun settings' usable locale mem => ?_⟩
  · rw [root]
    exact rooted (settings ▸ usable)
  · rw [settings] at unusable
    simp only [loadAllLocales, bind_ok, read_ok, exists_both_eq, ite_ok] at run
    obtain ⟨detected, -⟩ | ⟨-, nothing⟩ := run
    · simp [projectPart, ProjectState.isDetected, unusable] at detected
    · obtain ⟨-, rfl⟩ := pure_ok.1 nothing
      exact bare unusable
  · have usable₀ : s.project.settings = some settings' := settings ▸ usable
    have rooted₀ := rooted (by rw [usable₀]; rfl)
    have detected : s.project.isDetected = true := by
      rw [ProjectState.isDetected, rooted₀, usable₀]
      rfl
    have listed : locale ∈ s.project.locales := by
      rw [ProjectState.locales, usable₀]
      exact mem
    obtain ⟨root', found⟩ := Option.isSome_iff_exists.1 rooted₀
    obtain ⟨messages, _, -, held⟩ := fresh detected locale listed root' settings' (root ▸ found)
      usable
    exact Table.contains_iff.2 ⟨messages, held⟩

theorem loadAllLocales_failed (run : loadAllLocales s = .error e s') :
    e ≠ .noProject ∧ (ReadingFails s₀ e s' ∨ Holds s₀ s') := by
  obtain ⟨c, rfl⟩ := loadAllLocales_error run
  exact ⟨by simp, .inl (.inl ⟨c, rfl⟩)⟩

theorem loadAllLocales_upholds (tracks : Tracks s₀ s) (guarded : s₀.Guarded → s.Guarded)
    (rooted : s.project.settings.isSome = true → s.project.root.isSome = true)
    (bare : s.project.settings = none → s.project.messages = ∅) :
    Upholds s₀ s loadAllLocales := by
  refine ⟨fun v s' run => ?_, fun e s' run => loadAllLocales_failed run⟩
  have coherent := loadAllLocales_coherent rooted bare run
  obtain ⟨loads, -⟩ := loadAllLocales_loads run
  have root : s'.project.root = s.project.root := by rw [loads.outside]
  have options : s'.options = s.options := by rw [loads.outside]
  refine ⟨tracks.of_same options root, coherent, fun before root' found => ?_⟩
  rw [loads.outside] at found ⊢
  exact guarded before root' found

/-- The settings file is the first to be watched, so it is watched whatever becomes of the rest. -/
theorem setUpWatches_upholds (tracks : Tracks s₀ s) (coherent : s.project.Coherent)
    (found : s.project.root = some root) {stamp : Option FileStamp}
    (present : s.workspace.stamp? (s.settingsFile root) = .ok stamp) :
    Upholds s₀ s setUpWatches := by
  constructor
  · intro v s' run
    obtain ⟨outside, -, -, watching, -⟩ := setUpWatches_ok found run
    have project : s'.project = s.project := by rw [outside]
    have options : s'.options = s.options := by rw [outside]
    exact ⟨tracks.of_same options (congrArg ProjectState.root project), project ▸ coherent,
      fun _ => watching.settings⟩
  · intro e s' run
    obtain unwatched | ⟨_, t, watched, later⟩ := bind_error.1 run
    · exact absurd unwatched (watchSettingsFile_avoids found present)
    obtain ⟨outside, -, -, guarded, -⟩ := watchSettingsFile_watches found watched
    have same : projectPart.get t = s.project := by rw [outside]; rfl
    simp only [bind_error, read_error, read_ok, exists_both_eq, false_or, same, found] at later
    cases usable : s.project.settings with
    | none =>
      simp only [usable] at later
      exact (pure_error.1 later).elim
    | some settings =>
      simp only [usable] at later
      obtain ⟨⟨c, rfl⟩, registers⟩ := forM_watchLocale_error later
      have project : s'.project = s.project := by rw [registers.outside, outside]
      have options : s'.options = s.options := by rw [registers.outside, outside]
      refine ⟨by simp, .inr ⟨tracks.of_same options (congrArg ProjectState.root project),
        project ▸ coherent, fun _ root' found' => ?_⟩⟩
      rw [project, found] at found'
      obtain rfl := Option.some.inj found'
      rw [settingsFile_congr options]
      exact registers.watches _ _ guarded

/-- Settings that have been read from the settings file are applied. -/
theorem applySettings_upholds {loaded : Except LogRecord ProjectSettings} (tracks : Tracks s₀ s)
    (found : s.project.root = some root)
    (read : loadSettings s.workspace root s.options.marker = .ok loaded) :
    Upholds s₀ s (applySettings settings) := by
  obtain ⟨stamp, present⟩ := stamp?_of_loadSettings read
  refine .after (fun e s' run => (change_error.1 run).elim) fun _ s₁ changed => ?_
  obtain rfl := change_ok.1 changed
  refine .after (fun e s' run => loadAllLocales_failed run) fun _ t loading => ?_
  have coherent := loadAllLocales_coherent (fun _ => ?_) (fun none => by cases none) loading
  · obtain ⟨loads, -⟩ := loadAllLocales_loads loading
    have options : t.options = s.options := by rw [loads.outside]; rfl
    have workspace : t.workspace = s.workspace := by rw [loads.outside]; rfl
    have root' : t.project.root = s.project.root := by rw [loads.outside]; rfl
    have present' : t.workspace.stamp? (t.settingsFile root) = .ok stamp := by
      rw [settingsFile, options, workspace]
      exact present
    exact setUpWatches_upholds (tracks.of_same options root') coherent (root'.trans found) present'
  · show s.project.root.isSome = true
    rw [found]
    rfl

/-- While the settings cannot be used, their file is watched. -/
theorem watchSettingsFile_upholds {loaded : Except LogRecord ProjectSettings}
    (tracks : Tracks s₀ s) (coherent : s.project.Coherent) (found : s.project.root = some root)
    (read : loadSettings s.workspace root s.options.marker = .ok loaded) :
    Upholds s₀ s watchSettingsFile := by
  obtain ⟨stamp, present⟩ := stamp?_of_loadSettings read
  refine ⟨fun v s' run => ?_, fun e s' run => absurd run (watchSettingsFile_avoids found present)⟩
  obtain ⟨outside, -, -, watched, -⟩ := watchSettingsFile_watches found run
  have project : s'.project = s.project := by rw [outside]
  have options : s'.options = s.options := by rw [outside]
  refine ⟨tracks.of_same options (congrArg ProjectState.root project), project ▸ coherent,
    fun _ root' found' => ?_⟩
  rw [project, found] at found'
  obtain rfl := Option.some.inj found'
  rw [settingsFile_congr options]
  exact watched

theorem updateAll_upholds (holds : Holds s₀ s) : Upholds s₀ s updateAll :=
  .of_files holds updateAll_keeps_files updateAll_avoids

theorem emit_upholds (holds : Holds s₀ s) (event : SessionEvent) : Upholds s₀ s (emit event) :=
  .of_files holds (emit_keeps_files event) (Avoids.modify _)

theorem readSettings_reads {read : Option ProjectSettings}
    (run : readSettings root s = .ok read t) :
    fileSide t = fileSide s ∧
      ∃ loaded, loadSettings t.workspace root t.options.marker = .ok loaded := by
  obtain ⟨loaded, events, current, -, rfl⟩ := readSettings_ok run
  exact ⟨rfl, loaded, current⟩

/-- Settings that cannot be read again are left as they are. -/
theorem readSettings_failed (holds : Holds s₀ s) (run : readSettings root s = .error e s') :
    e ≠ .noProject ∧ (ReadingFails s₀ e s' ∨ Holds s₀ s') := by
  obtain ⟨c, -, rfl, rfl⟩ := readSettings_error run
  exact ⟨by simp, .inr holds⟩

theorem onSettingsChanged_upholds (holds : Holds s₀ s) : Upholds s₀ s onSettingsChanged := by
  refine .read_bind ?_
  cases found : s.project.root with
  | none =>
    simp only [projectPart, found]
    exact .pure holds ()
  | some root =>
    simp only [projectPart, found]
    refine .after (fun e s' run => readSettings_failed holds run) fun read t reading => ?_
    obtain ⟨same, loaded, current⟩ := readSettings_reads reading
    have tracks : Tracks s₀ t := (holds.of_fileSide same).toTracks
    have found' : t.project.root = some root :=
      (congrArg (·.project.root) same).trans found
    cases read with
    | some settings =>
      exact (applySettings_upholds tracks found' current).bind fun _ _ _ holds =>
        updateAll_upholds holds
    | none =>
      refine .after (fun e s' run => (change_error.1 run).elim) fun _ t' dropped => ?_
      obtain rfl := change_ok.1 dropped
      have dropping : Tracks s₀
          (projectPart.put t { t.project with settings := none, messages := ∅ }) :=
        tracks.of_same rfl rfl
      exact (watchSettingsFile_upholds dropping (.drop _) found' current).bind
        fun _ _ _ holds => updateAll_upholds holds

/-- The first project that is found is that of the session from then on. -/
theorem discoverProject_upholds (holds : Holds s₀ s) (unfound : s₀.project.root = none)
    (rootless : s.project.root = none) {file : Path} : Upholds s₀ s (discoverProject file) := by
  have bare : s.project.settings = none := by
    cases usable : s.project.settings with
    | none => rfl
    | some settings =>
      have rooted := holds.coherent.rooted (by rw [usable]; rfl)
      rw [rootless] at rooted
      cases rooted
  refine .get_bind (.after (fun e s' run => ?_) fun search t searched => ?_)
  · obtain ⟨c, -, rfl, rfl⟩ := attempt_error run
    exact ⟨by simp, .inr holds⟩
  · have same : t = s := by
      cases looked : findProjectRoot s.workspace file s.options.marker with
      | error c => rw [looked] at searched; exact (throw_ok.1 searched).elim
      | ok found => rw [looked] at searched; exact (pure_ok.1 searched).2.symm
    rw [same]
    cases search with
    | none => exact .pure holds ()
    | some root =>
      refine .after (fun e s' run => (change_error.1 run).elim) fun _ t rooted => ?_
      obtain rfl := change_ok.1 rooted
      have tracks : Tracks s₀ (projectPart.put s { s.project with root := some root }) := by
        refine ⟨holds.options, fun root' found => ?_⟩
        rw [unfound] at found
        cases found
      refine .after (fun e s' run => ?_) fun read t reading => ?_
      · obtain ⟨c, unread, rfl, rfl⟩ := readSettings_error run
        exact ⟨by simp, .inl (.inr ⟨root, c, unfound, rfl, rfl, unread⟩)⟩
      · obtain ⟨same, loaded, current⟩ := readSettings_reads reading
        have found : t.project.root = some root := congrArg (·.project.root) same
        have tracks' : Tracks s₀ t :=
          tracks.of_same (congrArg FileSide.options same) (congrArg (·.project.root) same)
        cases read with
        | some settings =>
          exact (applySettings_upholds tracks' found current).bind
            fun _ _ _ holds => emit_upholds holds _
        | none =>
          have settings : t.project.settings = none :=
            (congrArg (·.project.settings) same).trans bare
          have messages : t.project.messages = ∅ :=
            (congrArg (·.project.messages) same).trans (holds.coherent.bare bare)
          have coherent : t.project.Coherent := by
            refine ⟨fun usable => ?_, fun _ => messages, fun settings' usable => ?_⟩
            · rw [settings] at usable
              cases usable
            · rw [settings] at usable
              cases usable
          exact watchSettingsFile_upholds tracks' coherent found current

theorem refresh_upholds (holds : Holds s₀ s) : Upholds s₀ s refresh := by
  have ending : ∀ {t : Session τ}, Holds s₀ t → Upholds s₀ t (do
      updateAll
      log .info "Lazy Watson translations refreshed") :=
    fun holds => (updateAll_upholds holds).bind fun _ _ _ holds => emit_upholds holds _
  refine .read_bind ?_
  -- the two branches of the operation end in the same way
  split
  · rename_i root locale messages project
    have found : s.project.root = some root := congrArg ProjectState.root project
    refine .after (fun e s' run => readSettings_failed holds run) fun read t reading => ?_
    obtain ⟨same, loaded, current⟩ := readSettings_reads reading
    have holds' : Holds s₀ t := holds.of_fileSide same
    cases read with
    | some settings =>
      exact (applySettings_upholds holds'.toTracks ((congrArg (·.project.root) same).trans found)
        current).bind fun _ _ _ holds => ending holds
    | none => exact ending holds'
  · refine .after (fun e s' run => (change_error.1 run).elim) fun _ t dropped => ?_
    obtain rfl := change_ok.1 dropped
    have tracks : Tracks s₀ (projectPart.put s { s.project with messages := ∅ }) :=
      holds.toTracks.of_same rfl rfl
    exact (loadAllLocales_upholds tracks holds.guarded holds.coherent.rooted fun _ => rfl).bind
      fun _ _ _ holds => ending holds

theorem loadLocale_upholds (holds : Holds s₀ s) (usable : s.project.settings.isSome = true) :
    Upholds s₀ s (loadLocale locale) := by
  obtain ⟨root, found⟩ := Option.isSome_iff_exists.1 (holds.coherent.rooted usable)
  obtain ⟨settings, usable⟩ := Option.isSome_iff_exists.1 usable
  constructor
  · intro v s' run
    obtain ⟨_, _, messages, records, -, -, -, outside⟩ := loadLocale_ok run
    have root' : s'.project.root = s.project.root := by rw [outside]
    have settings' : s'.project.settings = s.project.settings := by rw [outside]
    refine ⟨holds.toTracks.of_same (by rw [outside]) root', ⟨fun usable' => ?_, fun unusable => ?_,
      fun settings'' usable' locale' mem => ?_⟩, fun guarded root'' found' => ?_⟩
    · rw [root']
      exact holds.coherent.rooted (settings' ▸ usable')
    · rw [settings', usable] at unusable
      cases unusable
    · have held := holds.coherent.loaded settings'' (settings' ▸ usable') locale' mem
      rw [outside, Table.contains, Table.get?_set]
      by_cases own : locale' = locale
      · rw [if_pos own]
        rfl
      · rw [if_neg own]
        exact held
    · rw [outside] at found' ⊢
      exact holds.guarded guarded root'' found'
  · intro e s' run
    obtain ⟨c, rfl⟩ := loadLocale_error found usable run
    exact ⟨by simp, .inl (.inl ⟨c, rfl⟩)⟩

theorem onMessageFileChanged_upholds (holds : Holds s₀ s) :
    Upholds s₀ s (onMessageFileChanged locale) := by
  refine .read_bind (.ite (fun detected => ?_) fun _ => .pure holds ())
  have usable : s.project.settings.isSome = true := (Bool.and_eq_true_iff.1 detected).2
  refine (emit_upholds holds _).bind fun _ t logged holds => ?_
  have project : t.project = s.project :=
    congrArg FileSide.project ((emit_keeps_files _).ok logged)
  exact (loadLocale_upholds holds (project ▸ usable)).bind fun _ _ _ holds =>
    updateAll_upholds holds

theorem refuseLocale_upholds (holds : Holds s₀ s) (shown : String) :
    Upholds s₀ s (refuseLocale shown) :=
  .read_bind <| .ite (fun _ => (emit_upholds holds _).bind fun _ _ _ holds => .pure holds _)
    fun _ => (emit_upholds holds _).bind fun _ _ _ holds => .pure holds _

theorem selectLocale_upholds (holds : Holds s₀ s) : Upholds s₀ s (selectLocale locale) := by
  refine .read_bind (.ite (fun _ => refuseLocale_upholds holds _) fun known => ?_)
  have usable : s.project.settings.isSome = true := by
    refine Option.isSome_iff_ne_none.2 fun unusable => known (.inl ?_)
    exact Option.isNone_iff_eq_none.2 unusable
  have ending : ∀ {t : Session τ}, Holds s₀ t → Upholds s₀ t (do
      updateAll
      log .info ("Locale set to: " ++ locale)
      return true) :=
    fun holds => (updateAll_upholds holds).bind fun _ _ _ holds =>
      (emit_upholds holds _).bind fun _ _ _ holds => .pure holds _
  refine .after (fun e s' run => (change_error.1 run).elim) fun _ t selected => ?_
  obtain rfl := change_ok.1 selected
  have holds' : Holds s₀ (projectPart.put s { s.project with locale := some locale }) :=
    ⟨holds.toTracks.of_same rfl rfl, ⟨holds.coherent.rooted, holds.coherent.bare,
      holds.coherent.loaded⟩, holds.guarded⟩
  refine .ite (fun _ => ?_) fun _ => ending holds'
  exact (loadLocale_upholds holds' usable).bind fun _ _ _ holds => ending holds

theorem attach_upholds {id : Handle} (coherent : s.project.Coherent) :
    Upholds s s (attach id) := by
  have ending : ∀ {t : Session τ}, Holds s t → Upholds s t (do
      modify fun s => { s with attached := s.attached ++ [id] }
      if (← get).enabled then updateBuffer id
      return true) := by
    intro t holds
    refine Upholds.of_files holds ?_ ?_
    · exact Keeps.bind (Keeps.modify fun _ => rfl) fun _ => Keeps.get.bind fun _ =>
        Keeps.ite ((updateBuffer_keeps_files id).bind fun _ => Keeps.pure _) (Keeps.pure _)
    · exact (Avoids.modify _).bind fun _ => Avoids.get.bind fun _ =>
        Avoids.ite ((updateBuffer_avoids id).bind fun _ => Avoids.pure _) (Avoids.pure _)
  have holds := Holds.refl coherent
  refine .get_bind (.ite (fun _ => .pure holds _) fun _ => ?_)
  refine (Upholds.of_files holds (keeps_buffer id) (buffer_avoids id)).bind fun b t read holds => ?_
  refine .ite (fun _ => .pure holds _) fun _ => .read_bind (.ite (fun rootless => ?_) fun _ =>
    ending holds)
  have rootless : t.project.root = none := Option.isNone_iff_eq_none.1 rootless
  have unfound : s.project.root = none := by
    have same : fileSide t = fileSide s := (keeps_buffer id).ok read
    exact (congrArg (·.project.root) same).symm.trans rootless
  exact (discoverProject_upholds holds unfound rootless).bind fun _ _ _ holds => ending holds

theorem call_upholds (holds : Holds s₀ s) (callback : SessionCallback) (p : Path) :
    Upholds s₀ s (call callback p) := by
  cases callback with
  | settings => exact onSettingsChanged_upholds holds
  | messages locale => exact onMessageFileChanged_upholds holds

theorem pollEach_upholds (holds : Holds s₀ s) (watches : List (Watch SessionCallback)) :
    Upholds s₀ s ((watchOwner call).pollEach watches) := by
  induction watches generalizing s with
  | nil => exact .pure holds []
  | cons x rest ih =>
    have stamps : Upholds s₀ s ((watchOwner call).stamp x.path) :=
      .of_files holds (Keeps.get.bind fun _ => keeps_attempt _ _)
        (Avoids.get.bind fun _ => avoids_attempt nofun)
    refine stamps.bind fun stamp t _ holds => .ite (fun _ => ih holds) fun _ => .read_bind ?_
    split
    · exact ih holds
    · rename_i now _
      refine .after (fun e s' run => (change_error.1 run).elim) fun _ t' recorded => ?_
      obtain rfl := change_ok.1 recorded
      have holds' : Holds s₀ (watcherPart.put t (t.watcher.record x.path stamp)) :=
        holds.of_same rfl rfl fun _ _ watched => watched.record
      refine (emit_upholds holds' _).bind fun _ _ _ holds => ?_
      refine (Upholds.forM holds (fun callback t holds => call_upholds holds callback x.path)
        _).bind fun _ _ _ holds => ?_
      exact (ih holds).answer _

theorem poll_upholds (holds : Holds s₀ s) : Upholds s₀ s poll :=
  .read_bind (pollEach_upholds holds _)

theorem changeFiles_upholds (holds : Holds s₀ s) (c : FileChange) :
    Upholds s₀ s (changeFiles c) := by
  refine .get_bind ((Upholds.of_files holds (keeps_attempt _ _) (avoids_attempt nofun)).bind
    fun w t _ holds => ⟨fun v s' run => ?_, fun e s' run => (modify_error.1 run).elim⟩)
  obtain rfl := modify_ok.1 run
  exact holds.of_same rfl rfl fun _ _ watched => watched

variable [Instant τ]

/-- Every step but the closing of the session upholds its project. -/
theorem perform_upholds {step : SessionStep} (open' : step ≠ .close)
    (coherent : s.project.Coherent) : Upholds s s (perform step) := by
  have holds := Holds.refl coherent
  cases step with
  | openBuffer path text =>
    exact (Upholds.of_files holds (openBuffer_keeps_files path text)
      (openBuffer_avoids path text)).answer _
  | closeBuffer id =>
    exact (Upholds.of_files holds (host_keeps_files _) (Avoids.change _ _)).answer _
  | setText id text =>
    exact (Upholds.of_files holds (changeBuffer_keeps_files id _)
      (changeBuffer_avoids id _)).answer _
  | setCursor id line column =>
    exact (Upholds.of_files holds (changeBuffer_keeps_files id _)
      (changeBuffer_avoids id _)).answer _
  | attach id => exact (attach_upholds coherent).answer _
  | detach id =>
    exact (Upholds.of_files holds (detach_keeps_files id)
      ((Avoids.modify _).bind fun _ => Avoids.change _ _)).answer _
  | textChanged id =>
    exact (Upholds.of_files holds (onTextChanged_keeps_files id) (onTextChanged_avoids id)).answer _
  | showHover id =>
    exact (Upholds.of_files holds (showHover_keeps_files id) (showHover_avoids id)).answer _
  | closeHover => exact (Upholds.of_files holds closeHover_keeps_files closeHover_avoids).answer _
  | cursorHold id =>
    exact (Upholds.of_files holds (onCursorHold_keeps_files id) (onCursorHold_avoids id)).answer _
  | cursorMoved id =>
    exact (Upholds.of_files holds closeHover_keeps_files closeHover_avoids).answer _
  | updateBuffer id =>
    exact (Upholds.of_files holds (updateBuffer_keeps_files id) (updateBuffer_avoids id)).answer _
  | updateAll => exact (updateAll_upholds holds).answer _
  | enable => exact (Upholds.of_files holds enable_keeps_files enable_avoids).answer _
  | disable => exact (Upholds.of_files holds disable_keeps_files disable_avoids).answer _
  | toggle => exact (Upholds.of_files holds toggle_keeps_files toggle_avoids).answer _
  | refresh => exact (refresh_upholds holds).answer _
  | selectLocale locale => exact (selectLocale_upholds holds).answer _
  | loadAllLocales =>
    exact (loadAllLocales_upholds holds.toTracks holds.guarded coherent.rooted
      coherent.bare).answer _
  | messageFileChanged locale => exact (onMessageFileChanged_upholds holds).answer _
  | settingsChanged => exact (onSettingsChanged_upholds holds).answer _
  | close => exact absurd rfl open'
  | advance ms => exact (Upholds.of_files holds (timers_keep_files _) (Avoids.change _ _)).answer _
  | runDue => exact (Upholds.of_files holds runDue_keeps_files runDue_avoids).answer _
  | poll => exact (poll_upholds holds).answer _
  | change c => exact (changeFiles_upholds holds c).answer _

/-! ## Runs -/

/-- In no step of the run does reading fail. -/
def Reads (s : Session τ) (steps : List SessionStep) : Prop :=
  ∀ before step after e s', steps = before ++ step :: after →
    perform step (runSteps s before) = .error e s' → ¬ ReadingFails (runSteps s before) e s'

theorem Reads.tail {step : SessionStep} {rest : List SessionStep} (reads : Reads s (step :: rest)) :
    Reads (leaves (perform step) s) rest := by
  intro before step' after e s' split failed
  have here := reads (step :: before) step' after e s' (by rw [split]; rfl)
  rw [runSteps_cons] at here
  exact here failed

theorem Reads.head {step : SessionStep} {rest : List SessionStep} (reads : Reads s (step :: rest))
    (failed : perform step s = .error e s') : ¬ ReadingFails s e s' :=
  reads [] step rest e s' rfl failed

/-- A step in which reading does not fail keeps the project in order. -/
theorem step_holds {step : SessionStep} (open' : step ≠ .close) (coherent : s.project.Coherent)
    (reads : ∀ e s', perform step s = .error e s' → ¬ ReadingFails s e s') :
    Holds s (leaves (perform step) s) := by
  have upholds := perform_upholds open' coherent
  rw [leaves]
  cases run : perform step s with
  | ok a s' => exact upholds.ok a s' run
  | error e s' => exact (upholds.failed e s' run).2.resolve_left (reads e s' run)

theorem close_project (s : Session τ) : (leaves (perform .close) s).project = s.project := rfl

theorem runSteps_holds {steps : List SessionStep} (coherent : s.project.Coherent)
    (reads : Reads s steps) :
    (runSteps s steps).project.Coherent ∧
    (∀ root, s.project.root = some root → (runSteps s steps).project.root = some root) ∧
    (.close ∉ steps → s.Guarded → (runSteps s steps).Guarded) := by
  induction steps generalizing s with
  | nil => exact ⟨coherent, fun _ found => found, fun _ guarded => guarded⟩
  | cons step rest ih =>
    rw [runSteps_cons]
    by_cases closes : step = .close
    · subst closes
      rw [← close_project s] at coherent ⊢
      obtain ⟨coherent', root', -⟩ := ih coherent reads.tail
      exact ⟨coherent', root', fun unclosed => absurd List.mem_cons_self unclosed⟩
    · have holds := step_holds closes coherent fun e s' failed => reads.head failed
      obtain ⟨coherent', root', guarded'⟩ := ih holds.coherent reads.tail
      refine ⟨coherent', fun root found => root' root (holds.root root found),
        fun unclosed guarded => guarded' (fun mem => unclosed (List.mem_cons_of_mem step mem))
          (holds.guarded guarded)⟩

/-- A step that succeeds leaves the project coherent and its root as it is. -/
theorem perform_coherent {step : SessionStep} {answer : SessionAnswer}
    (coherent : s.project.Coherent) (performed : perform step s = .ok answer s') :
    s'.project.Coherent ∧ ∀ root, s.project.root = some root → s'.project.root = some root := by
  by_cases closes : step = .close
  · subst closes
    have same := close_project s
    rw [leaves_ok performed] at same
    rw [same]
    exact ⟨coherent, fun _ found => found⟩
  · have holds := (perform_upholds closes coherent).ok _ _ performed
    exact ⟨holds.coherent, holds.root⟩

/-- Throughout a run there are messages of every locale that the settings name. -/
theorem coherent_of_run {steps : List SessionStep} (new : IsNew s₀)
    (run : Run perform s₀ steps s) : s.project.Coherent := by
  induction run with
  | start =>
    rw [new.project]
    exact .drop {}
  | next run performed ih => exact (perform_coherent ih performed).1

theorem Reads.append {before after : List SessionStep} (reads : Reads s (before ++ after)) :
    Reads s before ∧ Reads (runSteps s before) after := by
  constructor
  · intro first step later e s' split failed
    exact reads first step (later ++ after) e s' (by rw [split]; simp) failed
  · intro first step later e s' split failed
    have here := reads (before ++ first) step later e s' (by rw [split]; simp)
    rw [runSteps_append] at here
    exact here failed

/-- In a run in which settings and messages can be read, the root of the project never changes once
it is known, settings come with a root, there are no messages without settings and messages of every
locale with them, and from the discovery of the project until the session is closed the settings
file is watched. So no step asks for the messages of a locale without a project. -/
theorem project_stays_coherent {s₀ : Session τ} {steps : List SessionStep} (new : s₀.project = {})
    (reads : Reads s₀ steps) :
    (∀ before after root, steps = before ++ after →
      (runSteps s₀ before).project.root = some root →
      (runSteps s₀ steps).project.root = some root) ∧
    ((runSteps s₀ steps).project.settings.isSome = true →
      (runSteps s₀ steps).project.root.isSome = true) ∧
    ((runSteps s₀ steps).project.settings = none → (runSteps s₀ steps).project.messages = ∅) ∧
    (∀ settings, (runSteps s₀ steps).project.settings = some settings →
      ∀ locale ∈ settings.locales, (runSteps s₀ steps).project.messages.contains locale = true) ∧
    (∀ before after root, steps = before ++ after → (runSteps s₀ before).project.root = none →
      .close ∉ after → (runSteps s₀ steps).project.root = some root →
      (runSteps s₀ steps).settingsFile root ∈ (runSteps s₀ steps).watcher.paths) ∧
    ∀ step s', perform step (runSteps s₀ steps) ≠ .error .noProject s' := by
  have bare : s₀.project.Coherent := by
    rw [new]
    exact .drop {}
  obtain ⟨coherent, -, -⟩ := runSteps_holds bare reads
  refine ⟨fun before after root split found => ?_, coherent.rooted, coherent.bare, coherent.loaded,
    fun before after root split unfound unclosed found => ?_, fun step s' failed => ?_⟩
  · subst split
    obtain ⟨reads₁, reads₂⟩ := reads.append
    rw [runSteps_append]
    exact (runSteps_holds (runSteps_holds bare reads₁).1 reads₂).2.1 root found
  · subst split
    obtain ⟨reads₁, reads₂⟩ := reads.append
    rw [runSteps_append] at found ⊢
    have unguarded : (runSteps s₀ before).Guarded := by
      intro root' found'
      rw [unfound] at found'
      cases found'
    have guarded := (runSteps_holds (runSteps_holds bare reads₁).1 reads₂).2.2 unclosed unguarded
    obtain ⟨x, mem, here, -⟩ := guarded root found
    exact Watcher.mem_paths.2 ⟨x, mem, here⟩
  · by_cases closes : step = .close
    · subst closes
      cases failed
    · exact ((perform_upholds closes coherent).failed _ s' failed).1 rfl

/-- No step of the run fails for a reason that has to do with files. -/
def readsThroughout (s : Session τ) : List SessionStep → Bool
  | [] => true
  | step :: rest =>
    (match perform step s with
      | .ok _ _ => true
      | .error (.messages _) _ => false
      | .error (.file _) _ => false
      | .error _ _ => true) && readsThroughout (leaves (perform step) s) rest

theorem reads_of_readsThroughout {steps : List SessionStep}
    (quiet : readsThroughout s steps = true) : Reads s steps := by
  induction steps generalizing s with
  | nil =>
    intro before step after e s' split
    simp at split
  | cons first rest ih =>
    rw [readsThroughout, Bool.and_eq_true] at quiet
    intro before step after e s' split failed
    cases before with
    | nil =>
      obtain ⟨rfl, rfl⟩ := List.cons.inj split
      have failed' : perform first s = .error e s' := failed
      have here := quiet.1
      rw [failed'] at here
      rintro (⟨c, rfl⟩ | ⟨root, c, -, -, rfl, -⟩)
      · cases here
      · cases here
    | cons step' before =>
      obtain ⟨rfl, rest'⟩ := List.cons.inj split
      rw [runSteps_cons] at failed ⊢
      exact ih quiet.2 before step after e s' rest' failed

/-- A project is found after a step that fails, and its settings are deleted later. -/
def settingsDeleted : List SessionStep :=
  [.openBuffer "/p/a.ts" (some "m.k()"), .showHover (.number 9), .attach (.number 1),
    .change (.delete ⟨.root, ["p", "project.inlang", "settings.json"]⟩), .poll]

theorem project_stays_coherent_settingsDeleted :
    (onDisk nestedProject).project = {} ∧ Reads (onDisk nestedProject) settingsDeleted ∧
    (runSteps (onDisk nestedProject) (settingsDeleted.take 3)).project.settings.isSome = true ∧
    ∃ root, (runSteps (onDisk nestedProject) settingsDeleted).project.root = some root ∧
      (runSteps (onDisk nestedProject) settingsDeleted).project.settings = none ∧
      (runSteps (onDisk nestedProject) settingsDeleted).project.messages = ∅ ∧
      (runSteps (onDisk nestedProject) settingsDeleted).settingsFile root ∈
        (runSteps (onDisk nestedProject) settingsDeleted).watcher.paths ∧
      ∀ s', perform .refresh (runSteps (onDisk nestedProject) settingsDeleted) ≠
        .error .noProject s' := by
  obtain ⟨quiet, usable, found, unusable⟩ :
      readsThroughout (onDisk nestedProject) settingsDeleted = true ∧
      (runSteps (onDisk nestedProject) (settingsDeleted.take 3)).project.settings.isSome = true ∧
      (runSteps (onDisk nestedProject) settingsDeleted).project.root = some ⟨.root, ["p"]⟩ ∧
      (runSteps (onDisk nestedProject) settingsDeleted).project.settings = none := by
    decide +kernel
  have reads := reads_of_readsThroughout quiet
  obtain ⟨-, -, bare, -, watched, asked⟩ := project_stays_coherent rfl reads
  exact ⟨rfl, reads, usable, _, found, unusable, bare unusable,
    watched [] settingsDeleted _ rfl rfl (by decide) found, asked .refresh⟩

end Session

end MessageLens
