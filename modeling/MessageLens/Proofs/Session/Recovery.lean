import MessageLens.Proofs.Message.Loading
import MessageLens.Proofs.Session.Interrupted
import MessageLens.Proofs.Session.Start

/-!
# Repeating what has failed

Repeating an operation on files that have been repaired makes up for its failure where it settles
anew what it has settled before. A search that has found the project is not made again, and neither
are settings read again by `refresh` once there are some: then the watches on the message files stay
missing.
-/

namespace MessageLens
set_option autoImplicit false

open Operation

namespace Session

variable {τ α : Type} {s s' t : Session τ} {u : Unit} {e : SessionFailure} {c : LoadError}
  {root : Path} {settings : ProjectSettings} {locale : String} {w : Workspace}

/-! ## Repeating an operation -/

/-- Two states that differ in the log and in the places of buffers in the table of the editor. -/
structure SameButLog (s t : Session τ) : Prop where
  outside : t = { s with
    host := { s.host with buffers := t.host.buffers }
    events := t.events }
  buffers : ∀ i, t.host.buffers.get? i = s.host.buffers.get? i

/-- The operation comes to the same in two states: it succeeds in both or in neither, and if it
does, with the same answer and in the same way. -/
def ComesToSame (x : SessionOperation τ α) (s t : Session τ) : Prop :=
  ∀ a, (∀ s', x s = .ok a s' → ∃ t', x t = .ok a t' ∧ SameButLog s' t') ∧
    ∀ t', x t = .ok a t' → ∃ s', x s = .ok a s'

theorem ComesToSame.of_eq {x : SessionOperation τ α} (same : x s = x t) : ComesToSame x s t :=
  fun _ => ⟨fun s' run => ⟨s', same ▸ run, rfl, fun _ => rfl⟩, fun t' run => ⟨t', same ▸ run⟩⟩

theorem Reordered.of_log (same : t = { s with events := t.events }) : Reordered s t := by
  refine ⟨?_, ?_, fun i => ?_⟩
  · rw [same]
  · rw [same]
  · rw [same]

/-- An operation that comes to another operation in states that differ in the log. -/
theorem ComesToSame.of_log {x y : SessionOperation τ α} {s₁ t₁ : Session τ} (left : x s = y s₁)
    (right : x t = y t₁) (same : t₁ = { s₁ with events := t₁.events })
    (respects : Respects Reordered y) (keeps : Keeps attached y) : ComesToSame x s t := by
  have back : s₁ = { t₁ with events := s₁.events } := by rw [same]
  intro a
  rw [left, right]
  constructor
  · intro s' run
    obtain ⟨t', run', related⟩ := respects (Reordered.of_log same) run
    have attached : t'.attached = s'.attached := by
      rw [keeps.ok run', keeps.ok run, same]
    refine ⟨t', run', ?_, related.buffers⟩
    rw [related.outside, attached]
  · intro t' run
    obtain ⟨s', run', -⟩ := respects (Reordered.of_log back) run
    exact ⟨s', run'⟩

theorem updateAll_keeps_attached : Keeps attached (updateAll : SessionOperation τ Unit) := by
  intro s
  obtain ⟨t, drawn, redrawn⟩ := updateAll_ok s
  rw [leaves_ok drawn, redrawn.outside]

/-- With usable settings all messages are dropped first. -/
theorem refresh_eq (usable : s.project.settings = some settings) : refresh s = (do
      loadAllLocales
      updateAll
      log .info "Lazy Watson translations refreshed" : SessionOperation τ Unit)
    { s with project := { s.project with messages := ∅ } } := by
  obtain ⟨_, _, _, ⟨root, _, _, _⟩, _, _, _, _, _, _⟩ := s
  cases usable
  cases root <;> rfl

theorem refresh_repeats (usable : s.project.settings = some settings)
    (found : s.project.root = some root)
    (stopped : Interrupted s root settings s.project.locale c s') (w : Workspace) :
    ComesToSame refresh { s with workspace := w } { s' with workspace := w } := by
  have usable' : s'.project.settings = some settings := stopped.usable
  refine .of_log (refresh_eq usable) (refresh_eq usable') ?_ ?_ ?_
  · have project : { s'.project with messages := ∅ } = { s.project with messages := ∅ } := by
      rw [ProjectState.mk.injEq]
      exact ⟨stopped.found.trans found.symm, usable'.trans usable.symm, stopped.shown, rfl⟩
    show ({ { s' with workspace := w } with
      project := { s'.project with messages := ∅ } } : Session τ) = _
    rw [project, stopped.outside]
  · exact Reordered.unseen.loadAllLocales.bind fun _ =>
      Reordered.updateAll_respects.bind fun _ => Reordered.emit_respects _
  · exact (loadAllLocales_keeps_editor.comp EditorSide.attached).bind fun _ =>
      updateAll_keeps_attached.bind fun _ => Keeps.modify fun _ => rfl

/-- What follows an operation sees no more of it than its outcome. -/
theorem bind_run_congr {β : Type} {x y : SessionOperation τ α} (same : x s = y t)
    (k : α → SessionOperation τ β) : (x >>= k) s = (y >>= k) t := by
  show EStateM.bind x k s = EStateM.bind y k t
  rw [EStateM.bind, EStateM.bind, same]

/-- With usable settings in their file they are adopted, whatever they were before. -/
theorem onSettingsChanged_eq (found : s.project.root = some root)
    (declares : s.Declares root settings) : onSettingsChanged s = (do
      loadAllLocales
      setUpWatches
      updateAll : SessionOperation τ Unit) (s.adopting settings) := by
  have applied : onSettingsChanged s =
      (do applySettings settings; updateAll : SessionOperation τ Unit) s := by
    obtain ⟨_, _, _, ⟨root, _, _, _⟩, _, _, _, _, _, _⟩ := s
    cases found
    exact bind_run_congr (readSettings_eq declares) _
  rw [applied, bind_run_congr applySettings_eq, bind_assoc]

theorem selectLocale_eq (known : locale ∈ s.project.locales) :
    selectLocale locale { s with project := { s.project with locale := some locale } } =
      selectLocale locale s := by
  have accepted : ¬ (s.project.settings.isNone ∨ locale ∉ s.project.locales) := by
    rintro (none | other)
    · rw [ProjectState.locales, Option.isNone_iff_eq_none.1 none] at known
      cases known
    · exact other known
  show (if s.project.settings.isNone ∨ locale ∉ s.project.locales then _ else _ :
      SessionOperation τ Bool) _ =
    (if s.project.settings.isNone ∨ locale ∉ s.project.locales then _ else _ :
      SessionOperation τ Bool) _
  rw [if_neg accepted, if_neg accepted]
  rfl

theorem onSettingsChanged_repeats (found : s.project.root = some root)
    (stopped : Interrupted s root settings (some (settings.displayed s.project.locale)) c s')
    (declares : ({ s with workspace := w } : Session τ).Declares root settings) :
    ComesToSame onSettingsChanged { s with workspace := w } { s' with workspace := w } := by
  have found' : s'.project.root = some root := stopped.found
  have options : s'.options = s.options := by rw [stopped.outside]
  have declares' : ({ s' with workspace := w } : Session τ).Declares root settings := by
    show loadSettings w root s'.options.marker = _
    rw [options]
    exact declares
  refine .of_log (onSettingsChanged_eq found declares) (onSettingsChanged_eq found' declares')
    ?_ ?_ ?_
  · have project : { s'.project with
        settings := some settings
        locale := some (settings.displayed s'.project.locale)
        messages := ∅ } = { s.project with
        settings := some settings
        locale := some (settings.displayed s.project.locale)
        messages := ∅ } := by
      rw [ProjectState.mk.injEq, stopped.shown, settings.displayed_displayed]
      exact ⟨found'.trans found.symm, rfl, rfl, rfl⟩
    show ({ { s' with workspace := w } with project := { s'.project with
      settings := some settings
      locale := some (settings.displayed s'.project.locale)
      messages := ∅ } } : Session τ) = _
    rw [project, stopped.outside]
    rfl
  · exact Reordered.unseen.loadAllLocales.bind fun _ =>
      Reordered.unseen.setUpWatches.bind fun _ => Reordered.updateAll_respects
  · exact (loadAllLocales_keeps_editor.comp EditorSide.attached).bind fun _ =>
      (setUpWatches_keeps_editor.comp EditorSide.attached).bind fun _ => updateAll_keeps_attached

/-- Attaching does not look for a project that has been found. -/
theorem attach_found {id : Handle} {b : Bool} (found : s.project.root = some root)
    (run : attach id s = .ok b t) : t.project = s.project ∧ t.watcher = s.watcher := by
  obtain rfl | ⟨-, -, t', looked, drawn⟩ := attach_ok run
  · exact ⟨rfl, rfl⟩
  · obtain ⟨noRoot, -⟩ | ⟨-, rfl⟩ := looked
    · rw [found] at noRoot
      cases noRoot
    · rw [drawn.outside]
      exact ⟨rfl, rfl⟩

/-- Refreshing does not read settings again that can be used. -/
theorem refresh_usable (found : s.project.root = some root)
    (usable : s.project.settings = some settings) (run : refresh s = .ok u t) :
    t.project = { s.project with messages := t.project.messages } ∧ t.watcher = s.watcher ∧
      ∀ locale ∈ settings.locales, Fresh t locale := by
  rw [refresh_eq usable, bind_ok] at run
  obtain ⟨_, t', loaded, finished⟩ := run
  have same := (updateAll_log_keeps_files _).ok finished
  have project : t.project = t'.project := congrArg FileSide.project same
  have workspace : t.workspace = t'.workspace := congrArg FileSide.workspace same
  obtain ⟨loads, fresh⟩ := loadAllLocales_loads loaded
  have detected : s.project.isDetected = true := by
    rw [ProjectState.isDetected, found, usable]
    rfl
  have locales : s.project.locales = settings.locales := by
    rw [ProjectState.locales, usable]
    rfl
  refine ⟨?_, ?_, fun locale listed => ?_⟩
  · rw [project, loads.outside]
  · have watcher : t.watcher = t'.watcher := congrArg FileSide.watcher same
    rw [watcher, loads.outside]
  · have anew := fresh detected locale (locales ▸ listed)
    unfold Fresh at anew ⊢
    rw [project, workspace]
    exact anew

/-! ## Loading that fails, operation by operation -/

theorem answer_error {β : Type} {x : SessionOperation τ α} {f : α → β}
    (run : (do return f (← x) : SessionOperation τ β) s = .error e s') : x s = .error e s' :=
  Avoids.first (fun _ => Avoids.pure _) run

theorem ComesToSame.answer {β : Type} {x : SessionOperation τ α} (same : ComesToSame x s t)
    (f : α → β) : ComesToSame (do return f (← x)) s t := by
  intro b
  constructor
  · intro s' run
    obtain ⟨a, s₁, ran, answer⟩ := bind_ok.1 run
    obtain ⟨rfl, rfl⟩ := pure_ok.1 answer
    obtain ⟨t', ran', alike⟩ := (same a).1 _ ran
    exact ⟨t', bind_ok.2 ⟨a, t', ran', rfl⟩, alike⟩
  · intro t' run
    obtain ⟨a, t₁, ran, answer⟩ := bind_ok.1 run
    obtain ⟨rfl, rfl⟩ := pure_ok.1 answer
    obtain ⟨s', ran'⟩ := (same a).2 _ ran
    exact ⟨s', bind_ok.2 ⟨a, s', ran', rfl⟩⟩

end Session

/-- The operations that load the messages of a project, or of a locale that is to be displayed. -/
inductive Loading where
  | attach (id : Handle)
  | refresh
  | selectLocale (locale : String)
  | settingsChanged

namespace Loading

open Session

variable {τ : Type}

/-- The operation as a step of a run. -/
def step : Loading → SessionStep
  | attach id => .attach id
  | refresh => .refresh
  | selectLocale locale => .selectLocale locale
  | settingsChanged => .settingsChanged

/-- What the operation leaves behind when loading fails. -/
def Leaves (s : Session τ) (c : LoadError) (s' : Session τ) : Loading → Prop
  | attach id =>
    s.project.root = none ∧ ∃ b root settings, s.host.buffers.get? id = some b ∧
      findProjectRoot s.workspace (Path.parse b.path) s.options.marker = .ok (some root) ∧
      s.Declares root settings ∧
      Interrupted s root settings (some (settings.displayed s.project.locale)) c s'
  | refresh =>
    ∃ root settings, s.project.root = some root ∧
      (s.project.settings = some settings ∧
        Interrupted s root settings s.project.locale c s' ∨
      s.project.settings = none ∧ s.Declares root settings ∧
        Interrupted s root settings (some (settings.displayed s.project.locale)) c s')
  | selectLocale locale =>
    ∃ root settings, s.project.root = some root ∧ s.project.settings = some settings ∧
      locale ∈ settings.locales ∧ s.project.messages.get? locale = none ∧
      loadMessages s.workspace root settings.pathPattern locale = .error c ∧
      s' = { s with project := { s.project with locale := some locale } }
  | settingsChanged =>
    ∃ root settings, s.project.root = some root ∧ s.Declares root settings ∧
      Interrupted s root settings (some (settings.displayed s.project.locale)) c s'

/-- What repeating the operation comes to when the files have become those of `w`. A root that has
been found and settings that `refresh` has read stay, and nothing else is watched for them. -/
def Repeats [Instant τ] (s s' : Session τ) (w : Workspace) : Loading → Prop
  | attach id => ∀ answer t, perform (.attach id) { s' with workspace := w } = .ok answer t →
      t.project = s'.project ∧ t.watcher = s.watcher
  | refresh =>
    if s.project.settings.isSome then
      ComesToSame (perform .refresh) { s with workspace := w } { s' with workspace := w }
    else ∀ answer t, perform .refresh { s' with workspace := w } = .ok answer t →
      t.project = { s'.project with messages := t.project.messages } ∧ t.watcher = s.watcher ∧
        ∀ locale ∈ t.project.locales, Fresh t locale
  | selectLocale locale =>
    ComesToSame (perform (.selectLocale locale)) { s with workspace := w }
      { s' with workspace := w }
  | settingsChanged => ∀ root settings, s'.project.root = some root →
      s'.project.settings = some settings →
      ({ s with workspace := w } : Session τ).Declares root settings →
        ComesToSame (perform .settingsChanged) { s with workspace := w } { s' with workspace := w }

end Loading

namespace Session

variable {τ : Type} [Instant τ] {s s' : Session τ} {c : LoadError}

theorem perform_interrupted {op : Loading} (run : perform op.step s = .error (.messages c) s') :
    op.Leaves s c s' := by
  cases op with
  | attach id => exact attach_interrupted (answer_error run)
  | refresh => exact refresh_interrupted (answer_error (f := fun _ => SessionAnswer.nothing) run)
  | selectLocale locale => exact selectLocale_interrupted (answer_error run)
  | settingsChanged =>
    exact onSettingsChanged_interrupted (answer_error (f := fun _ => SessionAnswer.nothing) run)

theorem perform_repeats {op : Loading} (left : op.Leaves s c s') (w : Workspace) :
    op.Repeats s s' w := by
  cases op with
  | attach id =>
    obtain ⟨-, b, root, settings, -, -, -, stopped⟩ := left
    intro answer t run
    obtain ⟨_, t', attached, answered⟩ := bind_ok.1 run
    obtain ⟨-, rfl⟩ := pure_ok.1 answered
    obtain ⟨project, watcher⟩ := attach_found (by exact stopped.found) attached
    exact ⟨project, watcher.trans (by rw [stopped.outside])⟩
  | refresh =>
    obtain ⟨root, settings, found, ⟨usable, stopped⟩ | ⟨unusable, -, stopped⟩⟩ := left
    · rw [Loading.Repeats, if_pos (by rw [usable]; rfl)]
      exact (refresh_repeats usable found stopped w).answer fun _ => SessionAnswer.nothing
    · rw [Loading.Repeats, if_neg (by rw [unusable]; exact Bool.false_ne_true)]
      intro answer t run
      obtain ⟨_, t', refreshed, answered⟩ := bind_ok.1 run
      obtain ⟨-, rfl⟩ := pure_ok.1 answered
      obtain ⟨project, watcher, fresh⟩ :=
        refresh_usable (by exact stopped.found) (by exact stopped.usable) refreshed
      have locales : t'.project.locales = settings.locales := by
        rw [project, ProjectState.locales, stopped.usable]
        rfl
      refine ⟨project, watcher.trans (by rw [stopped.outside]), ?_⟩
      rw [locales]
      exact fresh
  | selectLocale locale =>
    obtain ⟨root, settings, -, usable, listed, -, -, rfl⟩ := left
    have known : locale ∈ s.project.locales := by
      rw [ProjectState.locales, usable]
      exact listed
    have same : selectLocale locale { s with workspace := w } = selectLocale locale
        { s with workspace := w, project := { s.project with locale := some locale } } :=
      (selectLocale_eq (by exact known)).symm
    exact (ComesToSame.of_eq same).answer SessionAnswer.flag
  | settingsChanged =>
    obtain ⟨root, settings, found, -, stopped⟩ := left
    intro root' settings' found' usable' declares
    obtain rfl := Option.some.inj (stopped.found.symm.trans found')
    obtain rfl := Option.some.inj (stopped.usable.symm.trans usable')
    exact (onSettingsChanged_repeats found stopped declares).answer fun _ => SessionAnswer.nothing

/-- An operation that cannot load the messages of a locale has changed nothing but the project and
the log. What it leaves of the project is made up for by repeating it on files that have been
repaired, except for the root that a search has found and the settings that `refresh` has read. -/
theorem interrupted_loading {op : Loading} (run : perform op.step s = .error (.messages c) s') :
    s' = { s with project := s'.project, events := s'.events } ∧ op.Leaves s c s' ∧
      ∀ w, op.Repeats s s' w := by
  have left := perform_interrupted run
  refine ⟨?_, left, perform_repeats left⟩
  cases op with
  | attach id =>
    obtain ⟨-, _, _, _, -, -, -, stopped⟩ := left
    exact stopped.outside
  | refresh =>
    obtain ⟨_, _, -, ⟨-, stopped⟩ | ⟨-, -, stopped⟩⟩ := left
    · exact stopped.outside
    · exact stopped.outside
  | selectLocale locale =>
    obtain ⟨_, _, -, -, -, -, -, rfl⟩ := left
    rfl
  | settingsChanged =>
    obtain ⟨_, _, -, -, stopped⟩ := left
    exact stopped.outside

/-- A disk with a project whose only message file cannot be loaded. -/
def brokenProject : Disk :=
  ⟨nestedProject.nodes ++ [(["p", "en.json"], .file compositeTypeContent 0)]⟩

/-- A session on that disk with a buffer of the project open. -/
def beforeAttaching : Session Int :=
  runSteps (onDisk brokenProject) [.openBuffer "/p/a.ts" (some "")]

theorem beforeAttaching_stops :
    beforeAttaching.project.root = none ∧
    perform (.attach (.number 1)) beforeAttaching = .error (.messages (.pattern .compositeType))
      ((beforeAttaching.rootedAt ⟨.root, ["p"]⟩).adopting ⟨"en", ["en"], "en.json"⟩) := by
  have rootless : beforeAttaching.project.root = none := by decide +kernel
  refine ⟨rootless, bind_error.2 (.inl ?_)⟩
  obtain ⟨b, isOpen, path⟩ : ∃ b, beforeAttaching.host.buffers.get? (.number 1) = some b ∧
      b.path = "/p/a.ts" := Option.map_eq_some_iff.1 (by decide +kernel)
  obtain ⟨read, t, reading, settings⟩ := ok_of_succeedsWith (x := readSettings ⟨.root, ["p"]⟩)
    (s := beforeAttaching) (p := fun read _ => read = some ⟨"en", ["en"], "en.json"⟩)
    (by decide +kernel)
  obtain ⟨events, -, declares⟩ := readSettings_declares reading
  have file : IsAccepted (messagePath ⟨.root, ["p"]⟩ "en.json" "en") := by
    unfold IsAccepted
    decide +kernel
  have broken : loadMessages beforeAttaching.workspace ⟨.root, ["p"]⟩ "en.json" "en" =
      .error (.pattern .compositeType) :=
    (loadMessages_defect file).2 (.of_compositeTypeContent rfl)
  refine attach_stops rfl ?_ isOpen ?_ ?_ rootless ?_
    ((declares _).1 (of_decide_eq_true settings)) broken
  · decide +kernel
  · rw [path]
    decide
  · rw [path]
    decide +kernel
  · rw [path]
    rfl

/-- The buffer cannot be attached, but its project has been found and the settings are in force.
Attaching it again on whatever files neither loads messages nor sets up watches. -/
theorem broken_attach_not_undone : IsNew (onDisk brokenProject) ∧
    beforeAttaching.project = {} ∧ beforeAttaching.watcher.paths = [] ∧
    ∃ c s', perform (.attach (.number 1)) beforeAttaching = .error (.messages c) s' ∧
      s'.project = ⟨some ⟨.root, ["p"]⟩, some ⟨"en", ["en"], "en.json"⟩, some "en", ∅⟩ ∧
      ∀ w answer t, perform (.attach (.number 1)) { s' with workspace := w } = .ok answer t →
        t.project.messages = ∅ ∧ t.watcher.paths = [] := by
  have bare : beforeAttaching.project = {} ∧ beforeAttaching.watcher.paths = [] := by decide +kernel
  refine ⟨onDisk_isNew _, bare.1, bare.2, _, _, beforeAttaching_stops.2, by decide +kernel, ?_⟩
  intro w answer t run
  obtain ⟨_, t', attached, answered⟩ := bind_ok.1 run
  obtain ⟨-, rfl⟩ := pure_ok.1 answered
  obtain ⟨project, watcher⟩ := attach_found (by rfl) attached
  rw [project, watcher]
  exact ⟨rfl, bare.2⟩

theorem interrupted_loading_brokenProject : ∃ c s',
    perform (Loading.attach (.number 1)).step beforeAttaching = .error (.messages c) s' ∧
    s' = { beforeAttaching with project := s'.project, events := s'.events } ∧
    (Loading.attach (.number 1)).Leaves beforeAttaching c s' ∧
    ∀ w, (Loading.attach (.number 1)).Repeats beforeAttaching s' w :=
  ⟨_, _, beforeAttaching_stops.2, interrupted_loading beforeAttaching_stops.2⟩

end Session

end MessageLens
