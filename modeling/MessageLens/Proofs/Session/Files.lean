import MessageLens.Proofs.Project.Settings
import MessageLens.Proofs.Session.Redraw
import MessageLens.Proofs.Table
import MessageLens.Proofs.Watch.Watcher

/-!
# What a session knows of its files

Whenever a session reads its settings it loads all messages and sets up all watches anew, so that
both are in step with the disk of that moment. Everything else that it does leaves the watches and
the settings alone.
-/

namespace MessageLens.Session
set_option autoImplicit false

open Operation

variable {τ : Type} {s s' t : Session τ} {u : Unit} {root : Path} {settings : ProjectSettings}
  {locale : String}

/-- The settings file of a project. -/
def settingsFile (s : Session τ) (root : Path) : Path := root.join (Path.parse s.options.marker)

/-- The settings in the settings file of a root, if they can be used. -/
def Declares (s : Session τ) (root : Path) (settings : ProjectSettings) : Prop :=
  loadSettings s.workspace root s.options.marker = .ok (.ok settings)

/-- The messages of a locale are those that its message file holds now. -/
def Fresh (s : Session τ) (locale : String) : Prop :=
  ∀ root settings, s.project.root = some root → s.project.settings = some settings →
    ∃ messages records,
      loadMessages s.workspace root settings.pathPattern locale = .ok (messages, records) ∧
        s.project.messages.get? locale = some messages

/-- The settings are what the settings file declares on a disk. -/
def Agrees (disk : Workspace) (s : Session τ) : Prop :=
  ∀ root, s.project.root = some root →
    s.project.settings.map ProjectSettings.declaration = declared disk (s.settingsFile root)

/-- The settings file is watched, and so are the message files that a disk holds. -/
structure Watching (disk : Workspace) (s : Session τ) : Prop where
  settings : ∀ root, s.project.root = some root →
    s.watcher.Watches (s.settingsFile root) .settings
  messages : ∀ root settings, s.project.root = some root → s.project.settings = some settings →
    ∀ locale ∈ settings.locales,
      disk.isFile (messagePath root settings.pathPattern locale) = .ok true →
        s.watcher.Watches (messagePath root settings.pathPattern locale) (.messages locale)

theorem settingsFile_congr (options : s'.options = s.options) (root : Path) :
    s'.settingsFile root = s.settingsFile root := by
  rw [settingsFile, options]
  rfl

theorem Agrees.congr {disk : Workspace} (agrees : Agrees disk s) (options : s'.options = s.options)
    (root : s'.project.root = s.project.root)
    (settings : s'.project.settings = s.project.settings) : Agrees disk s' := by
  intro root' found
  rw [settings, settingsFile_congr options]
  exact agrees root' (root ▸ found)

theorem Watching.congr {disk : Workspace} (watching : Watching disk s)
    (options : s'.options = s.options) (root : s'.project.root = s.project.root)
    (settings : s'.project.settings = s.project.settings)
    (watches : ∀ p c, s.watcher.Watches p c → s'.watcher.Watches p c) : Watching disk s' := by
  refine ⟨fun root' found => ?_, fun root' settings' found usable locale mem there => ?_⟩
  · rw [settingsFile_congr options]
    exact watches _ _ (watching.settings root' (root ▸ found))
  · exact watches _ _ (watching.messages root' settings' (root ▸ found) (settings ▸ usable) locale
      mem there)

/-- The watches are those of the settings file and of message files of the locales, each with the
callbacks of those whose file it is. -/
structure Posted (s : Session τ) : Prop where
  paths : (s.watcher.watches.map (·.path)).Nodup
  begun : ∀ x ∈ s.watcher.watches, x.registration < s.watcher.begun
  settings : ∀ p, s.watcher.Watches p .settings →
    ∃ root, s.project.root = some root ∧ p = s.settingsFile root
  messages : ∀ p l, s.watcher.Watches p (.messages l) →
    ∃ root settings, s.project.root = some root ∧ s.project.settings = some settings ∧
      l ∈ settings.locales ∧ p = messagePath root settings.pathPattern l
  complete : ∀ root settings, s.project.root = some root → s.project.settings = some settings →
    ∀ l ∈ settings.locales, ∀ x ∈ s.watcher.watches,
      x.path = messagePath root settings.pathPattern l →
        x.path = s.settingsFile root ∨ .messages l ∈ x.callbacks

theorem Posted.congr (posted : Posted s) (options : s'.options = s.options)
    (root : s'.project.root = s.project.root) (settings : s'.project.settings = s.project.settings)
    (watcher : s'.watcher = s.watcher) : Posted s' := by
  have file (root : Path) : s'.settingsFile root = s.settingsFile root :=
    settingsFile_congr options root
  obtain ⟨paths, begun, settings', messages, complete⟩ := posted
  constructor
  · rwa [watcher]
  · rwa [watcher]
  · simpa only [watcher, root, file] using settings'
  · simpa only [watcher, root, settings] using messages
  · simpa only [watcher, root, settings, file] using complete

/-- Nothing is watched. -/
theorem Posted.of_none (none : s.watcher.watches = []) : Posted s := by
  have unwatched (p : Path) (c : SessionCallback) : ¬ s.watcher.Watches p c := by
    rintro ⟨x, mem, -⟩
    rw [none] at mem
    cases mem
  constructor
  · rw [none]
    exact List.nodup_nil
  · simp [none]
  · exact fun p watched => absurd watched (unwatched p _)
  · exact fun p l watched => absurd watched (unwatched p _)
  · simp [none]

/-- What the watch of a path is there for, when message files are those that a disk holds. -/
def Meant (s : Session τ) (disk : Workspace) (p : Path) : SessionCallback → Prop
  | .settings => ∃ root, s.project.root = some root ∧ p = s.settingsFile root
  | .messages l => ∃ root settings, s.project.root = some root ∧
      s.project.settings = some settings ∧ l ∈ settings.locales ∧
      p = messagePath root settings.pathPattern l ∧ disk.isFile p = .ok true

/-- Watches that are there for what they should be there for are all that there should be. -/
theorem Posted.of_meant {disk looked : Workspace} {since : Nat}
    (inStep : s.watcher.InStep looked since) (watching : Watching disk s)
    (manned : s.watcher.Manned) (meant : ∀ p c, s.watcher.Watches p c → Meant s disk p c) :
    Posted s := by
  refine ⟨inStep.paths, inStep.begun, fun p watched => meant p .settings watched,
    fun p l watched => ?_, fun root settings found usable l mem x watch here => ?_⟩
  · obtain ⟨root, settings, found, usable, mem, path, -⟩ := meant p (.messages l) watched
    exact ⟨root, settings, found, usable, mem, path⟩
  · obtain ⟨c, registered⟩ := manned x watch
    have purpose := meant x.path c ⟨x, watch, rfl, registered⟩
    cases c with
    | settings =>
      obtain ⟨root', found', path⟩ := purpose
      obtain rfl := Option.some.inj (found.symm.trans found')
      exact .inl path
    | messages l' =>
      -- the watch is there for the file of another locale, so that the file is there
      obtain ⟨-, -, -, -, -, -, there⟩ := purpose
      rw [here] at there
      obtain ⟨y, mem', path, registered'⟩ :=
        watching.messages root settings found usable l mem there
      have first := Watcher.find?_of_mem inStep.paths watch
      have second := Watcher.find?_of_mem inStep.paths mem'
      rw [path, ← here, first] at second
      obtain rfl := Option.some.inj second
      exact .inr registered'

/-- The session has read its settings anew, and what it knows of its files is in step with the disk
as it is. -/
structure Renewed (s s' : Session τ) : Prop where
  options : s'.options = s.options
  workspace : s'.workspace = s.workspace
  found : s'.project.root.isSome = true
  root : ∀ root, s.project.root = some root → s'.project.root = some root
  begun : s.watcher.begun < s'.watcher.begun
  inStep : s'.watcher.InStep s.workspace s.watcher.begun
  watching : Watching s.workspace s'
  posted : Posted s'
  fresh : ∀ settings, s'.project.settings = some settings →
    ∀ locale ∈ settings.locales, Fresh s' locale
  read : ∀ root, s'.project.root = some root → ∃ loaded,
    loadSettings s.workspace root s.options.marker = .ok loaded ∧
      s'.project.settings = loaded.toOption
  shown : s'.project.locale = shownAfter s'.project.settings s.project.locale

theorem Renewed.agrees (renewed : Renewed s s') : Agrees s.workspace s' := by
  intro root found
  obtain ⟨loaded, read, settings⟩ := renewed.read root found
  rw [settings, settingsFile_congr renewed.options]
  exact loadSettings_declaration read

/-- Only the part of a session that reading the settings looks at counts for a renewal. -/
theorem Renewed.of_start (renewed : Renewed t s') (options : t.options = s.options)
    (workspace : t.workspace = s.workspace) (same : t.watcher.begun = s.watcher.begun)
    (root : ∀ root, s.project.root = some root → t.project.root = some root)
    (locale : t.project.locale = s.project.locale) : Renewed s s' := by
  obtain ⟨h₁, h₂, found, root', begun, inStep, watching, posted, fresh, read, shown⟩ := renewed
  rw [workspace, same] at inStep
  rw [same] at begun
  rw [workspace] at watching
  rw [workspace, options] at read
  rw [locale] at shown
  exact ⟨h₁.trans options, h₂.trans workspace, found, fun r first => root' r (root r first), begun,
    inStep, watching, posted, fresh, read, shown⟩

/-- Work that leaves the settings and the watches alone, and fresh messages fresh, does not undo a
renewal. -/
theorem Renewed.of_end (renewed : Renewed s t) (options : s'.options = t.options)
    (workspace : s'.workspace = t.workspace) (root : s'.project.root = t.project.root)
    (settings : s'.project.settings = t.project.settings) (watcher : s'.watcher = t.watcher)
    (locale : s'.project.locale = t.project.locale)
    (fresh : ∀ locale, Fresh t locale → Fresh s' locale) : Renewed s s' := by
  refine ⟨options.trans renewed.options, workspace.trans renewed.workspace, ?_, ?_, ?_, ?_,
    renewed.watching.congr options root settings fun _ _ watched => watcher ▸ watched,
    renewed.posted.congr options root settings watcher, fun settings' usable locale mem => ?_, ?_,
    ?_⟩
  · rw [root]; exact renewed.found
  · rw [root]; exact renewed.root
  · rw [watcher]; exact renewed.begun
  · rw [watcher]; exact renewed.inStep
  · exact fresh locale (renewed.fresh settings' (settings ▸ usable) locale mem)
  · rw [root, settings]; exact renewed.read
  · rw [locale, settings]; exact renewed.shown

/-- Work on buffers does not undo a renewal. -/
theorem Renewed.of_fileSide (renewed : Renewed s t) (same : fileSide s' = fileSide t) :
    Renewed s s' := by
  have project : s'.project = t.project := congrArg FileSide.project same
  have workspace : s'.workspace = t.workspace := congrArg FileSide.workspace same
  refine renewed.of_end (congrArg FileSide.options same) workspace
    (congrArg ProjectState.root project) (congrArg ProjectState.settings project)
    (congrArg FileSide.watcher same) (congrArg ProjectState.locale project) fun locale fresh => ?_
  unfold Fresh
  rw [project, workspace]
  exact fresh

/-! ## Setting up watches -/

/-- Watches have been added, and nothing else has changed. -/
structure Registers (s s' : Session τ) : Prop where
  outside : s' = { s with watcher := s'.watcher }
  begun : s.watcher.begun ≤ s'.watcher.begun
  inStep : ∀ since, since ≤ s.watcher.begun → s.watcher.InStep s.workspace since →
    s'.watcher.InStep s.workspace since
  watches : ∀ p c, s.watcher.Watches p c → s'.watcher.Watches p c

theorem Registers.refl (s : Session τ) : Registers s s :=
  ⟨rfl, Nat.le_refl _, fun _ _ inStep => inStep, fun _ _ watched => watched⟩

theorem Registers.trans (first : Registers s t) (second : Registers t s') : Registers s s' := by
  have workspace : t.workspace = s.workspace := by rw [first.outside]
  refine ⟨?_, Nat.le_trans first.begun second.begun, fun since le inStep => ?_,
    fun p c watched => second.watches p c (first.watches p c watched)⟩
  · rw [second.outside, first.outside]
  · rw [← workspace]
    refine second.inStep since (Nat.le_trans le first.begun) ?_
    rw [workspace]
    exact first.inStep since le inStep

theorem stamp_ok {callbacks : SessionCallback → Path → SessionOperation τ Unit} {p : Path}
    {stamp : Option FileStamp} : (watchOwner callbacks).stamp p s = .ok stamp s' ↔
      s.workspace.stamp? p = .ok stamp ∧ s' = s := by
  simp only [watchOwner, bind_ok, get_ok, exists_both_eq]
  cases present : s.workspace.stamp? p with
  | error e => exact iff_of_false throw_ok.1 fun found => by cases found.1
  | ok stamp' =>
    rw [Except.ok.injEq, attempt, pure_ok]
    exact and_congr_right fun _ => eq_comm

/-- Registering a callback adds it to the watch of its path, or begins that watch. -/
theorem watch_ok {p : Path} {callback : SessionCallback} : watch p callback s = .ok u s' ↔
    (∃ x, s.watcher.find? p = some x ∧
      s' = { s with watcher := s.watcher.addCallback p callback }) ∨
    s.watcher.find? p = none ∧ ∃ stamp, s.workspace.stamp? p = .ok stamp ∧
      s' = { s with watcher := s.watcher.begin p stamp callback } := by
  simp only [watch, WatchOwner.watch, bind_ok, read_ok, exists_both_eq]
  have same : (watchOwner (τ := τ) fun _ _ => pure ()).watcher.get s = s.watcher := rfl
  rw [same]
  cases found : s.watcher.find? p with
  | some x =>
    simp only [change_ok, reduceCtorEq, false_and, or_false, Option.some.injEq, exists_eq_left']
    exact eq_comm
  | none =>
    simp only [bind_ok, stamp_ok, change_ok, reduceCtorEq, false_and, exists_false, false_or,
      true_and]
    constructor
    · rintro ⟨stamp, t, ⟨present, rfl⟩, rfl⟩
      exact ⟨stamp, present, rfl⟩
    · rintro ⟨stamp, present, rfl⟩
      exact ⟨stamp, s, ⟨present, rfl⟩, rfl⟩

theorem watch_registers {p : Path} {callback : SessionCallback}
    (run : watch p callback s = .ok u s') :
    Registers s s' ∧ s'.watcher.Watches p callback := by
  obtain ⟨x, found, rfl⟩ | ⟨free, stamp, present, rfl⟩ := watch_ok.1 run
  · exact ⟨⟨rfl, Nat.le_refl _, fun _ _ inStep => inStep.addCallback,
      fun _ _ watched => watched.addCallback⟩, Watcher.watches_addCallback found⟩
  · exact ⟨⟨rfl, Nat.le_succ _, fun _ le inStep => inStep.begin free present le,
      fun _ _ watched => watched.begin⟩, Watcher.watches_begin⟩

/-- Nothing is registered besides. -/
theorem watch_only {p q : Path} {callback c : SessionCallback}
    (run : watch p callback s = .ok u s') (watched : s'.watcher.Watches q c) :
    s.watcher.Watches q c ∨ q = p ∧ c = callback := by
  obtain ⟨x, found, rfl⟩ | ⟨free, stamp, present, rfl⟩ := watch_ok.1 run
  · exact watched.of_addCallback
  · exact watched.of_begin

theorem watch_manned {p : Path} {callback : SessionCallback}
    (run : watch p callback s = .ok u s') (manned : s.watcher.Manned) : s'.watcher.Manned := by
  obtain ⟨x, found, rfl⟩ | ⟨free, stamp, present, rfl⟩ := watch_ok.1 run
  · exact manned.addCallback
  · exact manned.begin

theorem watchSettingsFile_ok (found : s.project.root = some root)
    (run : watchSettingsFile s = .ok u s') :
    ∃ stamp, s.workspace.stamp? (s.settingsFile root) = .ok stamp ∧ s' = { s with
      watcher := ⟨[⟨s.settingsFile root, stamp, [.settings], s.watcher.begun⟩],
        s.watcher.begun + 1⟩ } := by
  simp only [watchSettingsFile, bind_ok, change_ok, exists_unit_eq, get_ok, exists_both_eq] at run
  have here : (watcherPart.put s (watcherPart.get s).clear).project.root = some root := found
  simp only [here] at run
  obtain ⟨x, watched, -⟩ | ⟨-, stamp, present, rfl⟩ := watch_ok.1 run
  · cases watched
  · exact ⟨stamp, present, rfl⟩

/-- The settings file alone is watched, as it is now. -/
theorem watchSettingsFile_watches (found : s.project.root = some root)
    (run : watchSettingsFile s = .ok u s') :
    s' = { s with watcher := s'.watcher } ∧ s.watcher.begun < s'.watcher.begun ∧
      s'.watcher.InStep s.workspace s.watcher.begun ∧
      s'.watcher.Watches (s.settingsFile root) .settings ∧ s'.watcher.Manned ∧
      ∀ p c, s'.watcher.Watches p c → p = s.settingsFile root ∧ c = .settings := by
  obtain ⟨stamp, present, rfl⟩ := watchSettingsFile_ok found run
  refine ⟨rfl, Nat.lt_succ_self _, ?_, ⟨_, List.mem_singleton_self _, rfl,
    List.mem_singleton_self _⟩, ?_, ?_⟩
  · constructor <;> simp [present]
  · intro x mem
    obtain rfl := List.mem_singleton.1 mem
    exact ⟨.settings, List.mem_singleton_self _⟩
  · rintro p c ⟨x, mem, rfl, registered⟩
    obtain rfl := List.mem_singleton.1 mem
    exact ⟨rfl, List.mem_singleton.1 registered⟩

/-- The message file of a locale is watched if it is there. -/
theorem watchLocale_ok (run : watchLocale root settings locale s = .ok u s') :
    (s.workspace.isFile (messagePath root settings.pathPattern locale) = .ok true ∧
      watch (messagePath root settings.pathPattern locale) (.messages locale) s = .ok u s') ∨
    s.workspace.isFile (messagePath root settings.pathPattern locale) = .ok false ∧ s' = s := by
  simp only [watchLocale, bind_ok, get_ok, exists_both_eq] at run
  obtain ⟨there, t, tested, run⟩ := run
  cases test : s.workspace.isFile (messagePath root settings.pathPattern locale) with
  | error e => rw [test] at tested; exact (throw_ok.1 tested).elim
  | ok b =>
    rw [test] at tested
    obtain ⟨rfl, rfl⟩ := pure_ok.1 tested
    cases b with
    | true => exact .inl ⟨rfl, run⟩
    | false => exact .inr ⟨rfl, (pure_ok.1 run).2.symm⟩

theorem watchLocale_registers (run : watchLocale root settings locale s = .ok u s') :
    Registers s s' ∧
      (s.workspace.isFile (messagePath root settings.pathPattern locale) = .ok true →
        s'.watcher.Watches (messagePath root settings.pathPattern locale) (.messages locale)) := by
  obtain ⟨there, watched⟩ | ⟨absent, rfl⟩ := watchLocale_ok run
  · have registered := watch_registers watched
    exact ⟨registered.1, fun _ => registered.2⟩
  · refine ⟨Registers.refl s', fun there => ?_⟩
    cases absent.symm.trans there

theorem forM_watchLocale_registers {locales : List String}
    (run : locales.forM (watchLocale root settings) s = .ok u s') :
    Registers s s' ∧ ∀ locale ∈ locales,
      s.workspace.isFile (messagePath root settings.pathPattern locale) = .ok true →
        s'.watcher.Watches (messagePath root settings.pathPattern locale) (.messages locale) := by
  induction locales generalizing s with
  | nil =>
    obtain rfl := forM_nil_ok.1 run
    exact ⟨Registers.refl s, fun _ mem => absurd mem List.not_mem_nil⟩
  | cons locale rest ih =>
    obtain ⟨t, first, later⟩ := forM_cons_ok.1 run
    obtain ⟨registers, watched⟩ := watchLocale_registers first
    obtain ⟨registers', watched'⟩ := ih later
    have workspace : t.workspace = s.workspace := by rw [registers.outside]
    refine ⟨registers.trans registers', fun l mem there => ?_⟩
    obtain rfl | mem := List.mem_cons.1 mem
    · exact registers'.watches _ _ (watched there)
    · exact watched' l mem (workspace ▸ there)

/-- Nothing is registered besides, and no watch is left without a callback. -/
theorem forM_watchLocale_only {locales : List String} (manned : s.watcher.Manned)
    (run : locales.forM (watchLocale root settings) s = .ok u s') :
    s'.watcher.Manned ∧ ∀ p c, s'.watcher.Watches p c → s.watcher.Watches p c ∨
      ∃ l ∈ locales, c = .messages l ∧ p = messagePath root settings.pathPattern l ∧
        s.workspace.isFile p = .ok true := by
  induction locales generalizing s with
  | nil =>
    obtain rfl := forM_nil_ok.1 run
    exact ⟨manned, fun _ _ watched => .inl watched⟩
  | cons locale rest ih =>
    obtain ⟨t, first, later⟩ := forM_cons_ok.1 run
    have workspace : t.workspace = s.workspace := by rw [(watchLocale_registers first).1.outside]
    have step : t.watcher.Manned ∧ ∀ p c, t.watcher.Watches p c → s.watcher.Watches p c ∨
        c = .messages locale ∧ p = messagePath root settings.pathPattern locale ∧
          s.workspace.isFile p = .ok true := by
      obtain ⟨there, watched⟩ | ⟨-, rfl⟩ := watchLocale_ok first
      · refine ⟨watch_manned watched manned, fun p c registered => ?_⟩
        refine (watch_only watched registered).imp_right ?_
        rintro ⟨rfl, rfl⟩
        exact ⟨rfl, rfl, there⟩
      · exact ⟨manned, fun _ _ watched => .inl watched⟩
    obtain ⟨manned', only⟩ := ih step.1 later
    refine ⟨manned', fun p c watched => ?_⟩
    rcases only p c watched with before | ⟨l, mem, call, path, there⟩
    · refine (step.2 p c before).imp_right ?_
      rintro ⟨call, path, there⟩
      exact ⟨locale, List.mem_cons_self, call, path, there⟩
    · rw [workspace] at there
      exact .inr ⟨l, List.mem_cons_of_mem locale mem, call, path, there⟩

theorem setUpWatches_ok (found : s.project.root = some root) (run : setUpWatches s = .ok u s') :
    s' = { s with watcher := s'.watcher } ∧ s.watcher.begun < s'.watcher.begun ∧
      s'.watcher.InStep s.workspace s.watcher.begun ∧ Watching s.workspace s' ∧ Posted s' := by
  simp only [setUpWatches, bind_ok, read_ok, exists_both_eq] at run
  obtain ⟨_, t, watchedSettings, run⟩ := run
  obtain ⟨outside, begun, inStep, watched, manned, only⟩ :=
    watchSettingsFile_watches found watchedSettings
  have project : t.project = s.project := by rw [outside]
  have workspace : t.workspace = s.workspace := by rw [outside]
  have same : projectPart.get t = s.project := project
  rw [same] at run
  have registers : Registers t s' ∧ s'.watcher.Manned ∧
      (∀ settings, s.project.settings = some settings → ∀ locale ∈ settings.locales,
        t.workspace.isFile (messagePath root settings.pathPattern locale) = .ok true →
          s'.watcher.Watches (messagePath root settings.pathPattern locale) (.messages locale)) ∧
      ∀ p c, s'.watcher.Watches p c → t.watcher.Watches p c ∨
        ∃ settings, s.project.settings = some settings ∧ ∃ l ∈ settings.locales,
          c = .messages l ∧ p = messagePath root settings.pathPattern l ∧
            t.workspace.isFile p = .ok true := by
    cases usable : s.project.settings with
    | none =>
      simp only [found, usable] at run
      obtain ⟨-, rfl⟩ := pure_ok.1 run
      exact ⟨Registers.refl _, manned, fun _ some => (by cases some),
        fun _ _ before => .inl before⟩
    | some settings =>
      simp only [found, usable] at run
      obtain ⟨registers, messages⟩ := forM_watchLocale_registers run
      obtain ⟨manned', only'⟩ := forM_watchLocale_only manned run
      refine ⟨registers, manned', fun settings' same' => ?_, fun p c watched' => ?_⟩
      · obtain rfl := Option.some.inj same'
        exact messages
      · exact (only' p c watched').imp_right fun added => ⟨settings, rfl, added⟩
  obtain ⟨registers, manned', messages, only'⟩ := registers
  have outside' : s' = { s with watcher := s'.watcher } := by
    rw [registers.outside, outside]
  have file : s'.settingsFile root = s.settingsFile root := by rw [outside']; rfl
  have project' : s'.project = s.project := by rw [outside']
  have inStep' : s'.watcher.InStep s.workspace s.watcher.begun := by
    rw [← workspace]
    refine registers.inStep _ (Nat.le_of_lt begun) ?_
    rw [workspace]
    exact inStep
  have watching : Watching s.workspace s' := by
    refine ⟨fun root' found' => ?_, fun root' settings found' usable locale mem there => ?_⟩
    · rw [project'] at found'
      obtain rfl := Option.some.inj (found.symm.trans found')
      rw [file]
      exact registers.watches _ _ watched
    · rw [project'] at found' usable
      obtain rfl := Option.some.inj (found.symm.trans found')
      exact messages settings usable locale mem (workspace ▸ there)
  refine ⟨outside', Nat.lt_of_lt_of_le begun registers.begun, inStep', watching,
    Posted.of_meant inStep' watching manned' fun p c registered => ?_⟩
  rw [workspace] at only'
  rcases only' p c registered with before | ⟨settings, usable, l, mem, rfl, path, there⟩
  · obtain ⟨rfl, rfl⟩ := only p c before
    exact ⟨root, by rw [project', found], file.symm⟩
  · exact ⟨root, settings, by rw [project', found], by rw [project', usable], mem, path, there⟩

/-! ## Loading messages -/

/-- Messages have been loaded, and those that were fresh have stayed so. -/
structure Loads (s s' : Session τ) : Prop where
  outside : s' = { s with
    project := { s.project with messages := s'.project.messages }
    events := s'.events }
  fresh : ∀ locale, Fresh s locale → Fresh s' locale

theorem Loads.refl (s : Session τ) : Loads s s := ⟨rfl, fun _ fresh => fresh⟩

theorem Loads.trans (first : Loads s t) (second : Loads t s') : Loads s s' := by
  refine ⟨?_, fun locale fresh => second.fresh locale (first.fresh locale fresh)⟩
  rw [second.outside, first.outside]

theorem logAll_ok {records : List LogRecord}
    (run : (records.forM fun r => emit (.logged r)) s = .ok u s') :
    s' = { s with events := s'.events } := by
  induction records generalizing s with
  | nil =>
    obtain rfl := forM_nil_ok.1 run
    rfl
  | cons r rest ih =>
    obtain ⟨t, first, later⟩ := forM_cons_ok.1 run
    obtain rfl := modify_ok.1 first
    rw [ih later]

theorem loadLocale_ok (run : loadLocale locale s = .ok u s') :
    ∃ root settings messages records, s.project.root = some root ∧
      s.project.settings = some settings ∧
      loadMessages s.workspace root settings.pathPattern locale = .ok (messages, records) ∧
      s' = { s with
        project := { s.project with messages := s.project.messages.set locale messages }
        events := s'.events } := by
  simp only [loadLocale, bind_ok, get_ok, exists_both_eq] at run
  cases found : s.project.root with
  | none => simp only [found] at run; exact (throw_ok.1 run).elim
  | some root =>
    cases usable : s.project.settings with
    | none => simp only [found, usable] at run; exact (throw_ok.1 run).elim
    | some settings =>
      simp only [found, usable, bind_ok] at run
      obtain ⟨⟨messages, records⟩, t, loaded, _, t', logged, set⟩ := run
      cases load : loadMessages s.workspace root settings.pathPattern locale with
      | error e => rw [load] at loaded; exact (throw_ok.1 loaded).elim
      | ok both =>
        rw [load] at loaded
        obtain ⟨rfl, rfl⟩ := pure_ok.1 loaded
        obtain rfl := change_ok.1 set
        refine ⟨root, settings, messages, records, rfl, rfl, load, ?_⟩
        rw [logAll_ok logged]
        rfl

/-- Selecting a locale displays it, if it is one of the project, and may load its messages. -/
theorem selectLocale_project {b : Bool} (run : selectLocale locale s = .ok b s') :
    ∃ messages, s'.project = { s.project with
      locale := if b then some locale else s.project.locale
      messages := messages } := by
  have ending {t : Session τ} (rest : (do
      updateAll
      log .info ("Locale set to: " ++ locale)
      return true : SessionOperation τ Bool) t = .ok b s') :
      b = true ∧ s'.project = t.project := by
    simp only [bind_ok] at rest
    obtain ⟨_, t₁, drawn, _, t₂, logged, answer⟩ := rest
    obtain ⟨rfl, rfl⟩ := pure_ok.1 answer
    have ended := (updateAll_log_keeps_files _).ok (bind_ok.2 ⟨_, t₁, drawn, logged⟩)
    exact ⟨rfl, congrArg (·.project) ended⟩
  obtain ⟨p, t, read, run⟩ := bind_ok.1 run
  obtain ⟨rfl, rfl⟩ := read_ok.1 read
  obtain ⟨-, refused⟩ | ⟨-, run⟩ := ite_ok.1 run
  · obtain rfl := refuseLocale_answer refused
    have same := (refuseLocale_keeps emit_keeps_files _).ok refused
    exact ⟨s.project.messages, congrArg (·.project) same⟩
  · obtain ⟨_, t, chosen, run⟩ := bind_ok.1 run
    obtain rfl := change_ok.1 chosen
    obtain ⟨-, run⟩ | ⟨-, rest⟩ := ite_ok.1 run
    · obtain ⟨_, t, loaded, rest⟩ := bind_ok.1 run
      obtain ⟨rfl, shown⟩ := ending rest
      obtain ⟨_, _, _, _, -, -, -, outside⟩ := loadLocale_ok loaded
      rw [shown, outside]
      exact ⟨_, rfl⟩
    · obtain ⟨rfl, shown⟩ := ending rest
      exact ⟨s.project.messages, shown⟩

/-- Loading the messages of a locale makes them fresh. -/
theorem loadLocale_loads (run : loadLocale locale s = .ok u s') :
    Loads s s' ∧ Fresh s' locale := by
  obtain ⟨root, settings, messages, records, found, usable, load, outside⟩ := loadLocale_ok run
  have anew : ∀ l, (l = locale ∨ Fresh s l) → Fresh s' l := by
    intro l before root' settings' found' usable'
    rw [outside] at found' usable' ⊢
    obtain rfl := Option.some.inj (found.symm.trans found')
    obtain rfl := Option.some.inj (usable.symm.trans usable')
    by_cases own : l = locale
    · rw [own]
      exact ⟨messages, records, load, Table.get?_set_self ..⟩
    · have fresh : Fresh s l := before.resolve_left own
      obtain ⟨messages', records', load', kept⟩ := fresh root settings found usable
      exact ⟨messages', records', load', (Table.get?_set_ne _ own _).trans kept⟩
  refine ⟨⟨?_, fun l fresh => anew l (.inr fresh)⟩, anew locale (.inl rfl)⟩
  rw [outside]

theorem forM_loadLocale_loads {locales : List String}
    (run : locales.forM loadLocale s = .ok u s') :
    Loads s s' ∧ ∀ locale ∈ locales, Fresh s' locale := by
  induction locales generalizing s with
  | nil =>
    obtain rfl := forM_nil_ok.1 run
    exact ⟨Loads.refl s, fun _ mem => absurd mem List.not_mem_nil⟩
  | cons locale rest ih =>
    obtain ⟨t, first, later⟩ := forM_cons_ok.1 run
    obtain ⟨loads, fresh⟩ := loadLocale_loads first
    obtain ⟨loads', fresh'⟩ := ih later
    refine ⟨loads.trans loads', fun l mem => ?_⟩
    obtain rfl | mem := List.mem_cons.1 mem
    · exact loads'.fresh l fresh
    · exact fresh' l mem

theorem loadAllLocales_loads (run : loadAllLocales s = .ok u s') :
    Loads s s' ∧ (s.project.isDetected = true →
      ∀ locale ∈ s.project.locales, Fresh s' locale) := by
  simp only [loadAllLocales, bind_ok, read_ok, exists_both_eq, ite_ok] at run
  obtain ⟨-, loaded⟩ | ⟨undetected, unchanged⟩ := run
  · exact (forM_loadLocale_loads loaded).imp_right fun fresh _ => fresh
  · obtain ⟨-, rfl⟩ := pure_ok.1 unchanged
    exact ⟨Loads.refl s, fun detected => absurd detected undetected⟩

/-! ## Reading the settings -/

theorem readSettings_ok {r : Option ProjectSettings} (run : readSettings root s = .ok r s') :
    ∃ loaded events, loadSettings s.workspace root s.options.marker = .ok loaded ∧
      r = loaded.toOption ∧ s' = { s with events := events } := by
  simp only [readSettings, bind_ok, get_ok, exists_both_eq] at run
  obtain ⟨loaded, t, reading, run⟩ := run
  cases load : loadSettings s.workspace root s.options.marker with
  | error e => rw [load] at reading; exact (throw_ok.1 reading).elim
  | ok loaded' =>
    rw [load] at reading
    obtain ⟨rfl, rfl⟩ := pure_ok.1 reading
    refine ⟨loaded', s'.events, rfl, ?_⟩
    cases loaded' with
    | ok settings =>
      obtain ⟨rfl, rfl⟩ := pure_ok.1 run
      exact ⟨rfl, rfl⟩
    | error record =>
      obtain ⟨_, t, logged, answer⟩ := bind_ok.1 run
      obtain ⟨rfl, rfl⟩ := pure_ok.1 answer
      obtain rfl := modify_ok.1 logged
      exact ⟨rfl, rfl⟩

theorem readSettings_of_loadSettings {loaded : Except LogRecord ProjectSettings}
    (read : loadSettings s.workspace root s.options.marker = .ok loaded) :
    ∃ events, readSettings root s = .ok loaded.toOption { s with events := events } := by
  have given : (attempt .file (loadSettings s.workspace root s.options.marker) :
      SessionOperation τ (Except LogRecord ProjectSettings)) s = .ok loaded s := by
    rw [read]
    rfl
  rw [readSettings, bind_of_ok (get_ok.2 ⟨rfl, rfl⟩), bind_of_ok given]
  cases loaded with
  | ok settings => exact ⟨s.events, rfl⟩
  | error record => exact ⟨.logged record :: s.events, rfl⟩

/-- The session with settings put in force and no messages loaded yet. -/
def adopting (s : Session τ) (settings : ProjectSettings) : Session τ :=
  { s with project := { s.project with
    settings := some settings
    locale := some (settings.displayed s.project.locale)
    messages := ∅ } }

theorem applySettings_eq : applySettings settings s =
    (do loadAllLocales; setUpWatches : SessionOperation τ Unit) (s.adopting settings) := by
  rw [adopting, ← settings.some_displayed]
  rfl

/-- Applying the settings that the settings file holds renews the session. -/
theorem applySettings_renewed (found : s.project.root = some root)
    (current : loadSettings s.workspace root s.options.marker = .ok (.ok settings))
    (run : applySettings settings s = .ok u s') : Renewed s s' := by
  rw [applySettings_eq] at run
  obtain ⟨_, t, loaded, watched⟩ := bind_ok.1 run
  obtain ⟨loads, fresh⟩ := loadAllLocales_loads loaded
  have found' : t.project.root = some root := by rw [loads.outside]; exact found
  have usable' : t.project.settings = some settings := by rw [loads.outside]; rfl
  have locale' : t.project.locale = some (settings.displayed s.project.locale) := by
    rw [loads.outside]
    rfl
  have options' : t.options = s.options := by rw [loads.outside]; rfl
  have workspace' : t.workspace = s.workspace := by rw [loads.outside]; rfl
  have watcher' : t.watcher = s.watcher := by rw [loads.outside]; rfl
  obtain ⟨outside, begun, inStep, watching, posted⟩ := setUpWatches_ok found' watched
  have project : s'.project = t.project := by rw [outside]
  have workspace : s'.workspace = t.workspace := by rw [outside]
  have options : s'.options = t.options := by rw [outside]
  rw [watcher'] at begun inStep
  rw [workspace'] at inStep watching
  refine ⟨options.trans options', workspace.trans workspace', ?_, ?_, begun, inStep, watching,
    posted, ?_, ?_, ?_⟩
  · rw [project, found']
    rfl
  · intro root' first
    rw [project, found', ← found, first]
  · intro settings' usable locale mem
    rw [project, usable'] at usable
    obtain rfl := Option.some.inj usable
    have anew := fresh (by
      show (s.project.root.isSome && true) = true
      rw [found]
      rfl) locale mem
    unfold Fresh at anew ⊢
    rw [project, workspace]
    exact anew
  · intro root' first
    rw [project, found'] at first
    obtain rfl := Option.some.inj first
    exact ⟨.ok settings, current, by rw [project, usable']; rfl⟩
  · rw [project, usable', locale']
    rfl

/-- Settings that cannot be used are out of the session before the settings file is watched anew. -/
theorem watchSettingsFile_renewed {record : LogRecord} (found : s.project.root = some root)
    (unusable : s.project.settings = none)
    (current : loadSettings s.workspace root s.options.marker = .ok (.error record))
    (run : watchSettingsFile s = .ok u s') : Renewed s s' := by
  obtain ⟨outside, begun, inStep, watched, manned, only⟩ := watchSettingsFile_watches found run
  have project : s'.project = s.project := by rw [outside]
  have options : s'.options = s.options := by rw [outside]
  have file : s'.settingsFile root = s.settingsFile root := settingsFile_congr options root
  have unusable' : s'.project.settings = none := by rw [project, unusable]
  have watching : Watching s.workspace s' := by
    refine ⟨fun root' found' => ?_, fun _ settings _ usable => ?_⟩
    · rw [project, found] at found'
      obtain rfl := Option.some.inj found'
      rw [file]
      exact watched
    · cases unusable'.symm.trans usable
  have posted : Posted s' := Posted.of_meant inStep watching manned fun p c registered => by
    obtain ⟨rfl, rfl⟩ := only p c registered
    exact ⟨root, by rw [project, found], file.symm⟩
  refine ⟨options, by rw [outside], ?_, ?_, begun, inStep, watching, posted,
    fun settings usable => ?_, fun root' first => ?_, ?_⟩
  · rw [project, found]
    rfl
  · rw [project]
    exact fun _ first => first
  · cases unusable'.symm.trans usable
  · rw [project, found] at first
    obtain rfl := Option.some.inj first
    exact ⟨.error record, current, unusable'⟩
  · rw [project, unusable]
    rfl

theorem onSettingsChanged_renewed (found : s.project.root = some root)
    (run : onSettingsChanged s = .ok u s') : Renewed s s' := by
  simp only [onSettingsChanged, bind_ok, read_ok, exists_both_eq, projectPart, found] at run
  obtain ⟨read, t, reading, run⟩ := run
  obtain ⟨loaded, events, current, rfl, rfl⟩ := readSettings_ok reading
  refine Renewed.of_start (t := { s with events := events }) ?_ rfl rfl rfl (fun _ first => first)
    rfl
  cases loaded with
  | ok settings =>
    obtain ⟨_, t, applied, drawn⟩ := bind_ok.1 run
    have renewed := applySettings_renewed (by exact found) (by exact current) applied
    exact renewed.of_fileSide (updateAll_keeps_files.ok drawn)
  | error record =>
    obtain ⟨_, t, dropped, run⟩ := bind_ok.1 run
    obtain ⟨_, t', watched, drawn⟩ := bind_ok.1 run
    obtain rfl := change_ok.1 dropped
    have renewed := watchSettingsFile_renewed (by exact found) (by rfl) (by exact current) watched
    exact (renewed.of_fileSide (updateAll_keeps_files.ok drawn)).of_start rfl rfl rfl
      (fun _ first => first) rfl

/-- Looking for the project either leaves the session as it is or renews it. -/
theorem discoverProject_renewed {file : Path} (rootless : s.project.root = none)
    (bare : s.project.settings = none)
    (run : discoverProject file s = .ok u s') : s' = s ∨ Renewed s s' := by
  simp only [discoverProject, bind_ok, get_ok, exists_both_eq] at run
  obtain ⟨found, t, look, run⟩ := run
  cases search : findProjectRoot s.workspace file s.options.marker with
  | error e => rw [search] at look; exact (throw_ok.1 look).elim
  | ok found' =>
    rw [search] at look
    obtain ⟨rfl, rfl⟩ := pure_ok.1 look
    cases found' with
    | none => exact .inl (pure_ok.1 run).2.symm
    | some root =>
      refine .inr ?_
      have unfound : ∀ root', s.project.root = some root' → some root = some root' :=
        fun root' first => by cases rootless.symm.trans first
      obtain ⟨_, t, changed, run⟩ := bind_ok.1 run
      obtain ⟨read, t', reading, run⟩ := bind_ok.1 run
      obtain ⟨loaded, events, current, rfl, rfl⟩ := readSettings_ok reading
      obtain rfl := change_ok.1 changed
      cases loaded with
      | ok settings =>
        obtain ⟨_, t, applied, logged⟩ := bind_ok.1 run
        have renewed := (applySettings_renewed (by rfl) (by exact current) applied).of_fileSide
          ((emit_keeps_files _).ok logged)
        exact renewed.of_start rfl rfl rfl unfound rfl
      | error record =>
        have renewed := watchSettingsFile_renewed (by rfl) (by exact bare) (by exact current) run
        exact renewed.of_start rfl rfl rfl unfound rfl

/-! ## Steps -/

/-- What the watches of a session depend on. -/
structure WatchSide where
  options : PreviewOptions
  root : Option Path
  settings : Option ProjectSettings
  watcher : Watcher SessionCallback

/-- The part of the files that watches depend on. -/
def FileSide.watches (f : FileSide) : WatchSide :=
  ⟨f.options, f.project.root, f.project.settings, f.watcher⟩

/-- The part of a session that its watches depend on. -/
def watchSide (s : Session τ) : WatchSide := (fileSide s).watches

theorem watchSide_of_files {α : Type} {x : SessionOperation τ α} (keeps : Keeps fileSide x) :
    Keeps watchSide x :=
  keeps.comp FileSide.watches

theorem Loads.watchSide_eq (loads : Loads s s') : watchSide s' = watchSide s := by
  rw [loads.outside]
  rfl

theorem refresh_watchSide (run : refresh s = .ok u s') :
    watchSide s' = watchSide s ∨ Renewed s s' := by
  simp only [refresh, bind_ok, read_ok, exists_both_eq] at run
  generalize project : projectPart.get s = p at run
  split at run
  · rename_i root _ _
    have found : s.project.root = some root := congrArg ProjectState.root project
    obtain ⟨read, t, reading, run⟩ := bind_ok.1 run
    obtain ⟨loaded, events, current, rfl, rfl⟩ := readSettings_ok reading
    cases loaded with
    | ok settings =>
      obtain ⟨_, t, applied, rest⟩ := bind_ok.1 run
      have renewed := applySettings_renewed (by exact found) (by exact current) applied
      exact .inr ((renewed.of_fileSide ((updateAll_log_keeps_files _).ok rest)).of_start rfl rfl rfl
        (fun _ first => first) rfl)
    | error record =>
      have same := (watchSide_of_files (updateAll_log_keeps_files _)).ok run
      exact .inl same
  · obtain ⟨_, t, dropped, run⟩ := bind_ok.1 run
    obtain ⟨_, t', loaded, rest⟩ := bind_ok.1 run
    obtain rfl := change_ok.1 dropped
    have loads := (loadAllLocales_loads loaded).1.watchSide_eq
    exact .inl (((watchSide_of_files (updateAll_log_keeps_files _)).ok rest).trans loads)

theorem selectLocale_watchSide {b : Bool} (run : selectLocale locale s = .ok b s') :
    watchSide s' = watchSide s := by
  have finish : Keeps fileSide (do
      updateAll
      log .info ("Locale set to: " ++ locale)
      return true : SessionOperation τ Bool) :=
    updateAll_keeps_files.bind fun _ => (emit_keeps_files _).bind fun _ => Keeps.pure _
  obtain ⟨p, t, read, run⟩ := bind_ok.1 run
  obtain ⟨rfl, rfl⟩ := read_ok.1 read
  obtain ⟨-, refused⟩ | ⟨-, run⟩ := ite_ok.1 run
  · exact (watchSide_of_files (refuseLocale_keeps emit_keeps_files _)).ok refused
  · obtain ⟨_, t, chosen, run⟩ := bind_ok.1 run
    obtain rfl := change_ok.1 chosen
    obtain ⟨-, run⟩ | ⟨-, rest⟩ := ite_ok.1 run
    · obtain ⟨_, t, loaded, rest⟩ := bind_ok.1 run
      exact ((watchSide_of_files finish).ok rest).trans (loadLocale_loads loaded).1.watchSide_eq
    · have same := (watchSide_of_files finish).ok rest
      exact same

theorem onMessageFileChanged_watchSide (run : onMessageFileChanged locale s = .ok u s') :
    watchSide s' = watchSide s := by
  simp only [onMessageFileChanged, bind_ok, read_ok, exists_both_eq, ite_ok] at run
  obtain ⟨-, _, t, logged, _, t', loaded, drawn⟩ | ⟨-, unchanged⟩ := run
  · have quiet := (watchSide_of_files (emit_keeps_files _)).ok logged
    have loads := (loadLocale_loads loaded).1.watchSide_eq
    exact ((watchSide_of_files updateAll_keeps_files).ok drawn).trans (loads.trans quiet)
  · obtain ⟨-, rfl⟩ := pure_ok.1 unchanged
    rfl

theorem attach_watchSide {id : Handle} {b : Bool}
    (bare : s.project.root = none → s.project.settings = none) (run : attach id s = .ok b s') :
    watchSide s' = watchSide s ∨ Renewed s s' := by
  obtain rfl | ⟨-, -, t, looked, drawn⟩ := attach_ok run
  · exact .inl rfl
  have same : fileSide s' = fileSide t := by
    rw [drawn.outside]
    rfl
  obtain ⟨noRoot, file, discovered⟩ | ⟨-, rfl⟩ := looked
  · obtain rfl | renewed := discoverProject_renewed noRoot (bare noRoot) discovered
    · exact .inl (congrArg FileSide.watches same)
    · exact .inr (renewed.of_fileSide same)
  · exact .inl (congrArg FileSide.watches same)

/-- Unless it polls or ends the session, a step leaves the watches and the settings alone or renews
the session. -/
theorem perform_watchSide [Instant τ] {step : SessionStep} {answer : SessionAnswer}
    (noPoll : step ≠ .poll) (noClose : step ≠ .close)
    (bare : s.project.root = none → s.project.settings = none)
    (run : perform step s = .ok answer s') : watchSide s' = watchSide s ∨ Renewed s s' := by
  cases step with
  | attach id =>
    obtain ⟨b, t, attached, answered⟩ := bind_ok.1 run
    obtain ⟨-, rfl⟩ := pure_ok.1 answered
    exact attach_watchSide bare attached
  | refresh =>
    obtain ⟨_, t, refreshed, answered⟩ := bind_ok.1 run
    obtain ⟨-, rfl⟩ := pure_ok.1 answered
    exact refresh_watchSide refreshed
  | selectLocale locale =>
    obtain ⟨b, t, selected, answered⟩ := bind_ok.1 run
    obtain ⟨-, rfl⟩ := pure_ok.1 answered
    exact .inl (selectLocale_watchSide selected)
  | loadAllLocales =>
    obtain ⟨_, t, loaded, answered⟩ := bind_ok.1 run
    obtain ⟨-, rfl⟩ := pure_ok.1 answered
    exact .inl (loadAllLocales_loads loaded).1.watchSide_eq
  | messageFileChanged locale =>
    obtain ⟨_, t, changed, answered⟩ := bind_ok.1 run
    obtain ⟨-, rfl⟩ := pure_ok.1 answered
    exact .inl (onMessageFileChanged_watchSide changed)
  | settingsChanged =>
    obtain ⟨_, t, changed, answered⟩ := bind_ok.1 run
    obtain ⟨-, rfl⟩ := pure_ok.1 answered
    cases found : s.project.root with
    | some root => exact .inr (onSettingsChanged_renewed found changed)
    | none =>
      simp only [onSettingsChanged, bind_ok, read_ok, exists_both_eq, projectPart, found] at changed
      obtain ⟨-, rfl⟩ := pure_ok.1 changed
      exact .inl rfl
  | close => exact absurd rfl noClose
  | poll => exact absurd rfl noPoll
  | change c =>
    refine .inl (Keeps.ok ?_ run)
    exact Keeps.bind (Keeps.get.bind fun _ => (keeps_attempt _ _).bind fun _ =>
      Keeps.modify fun _ => rfl) fun _ => Keeps.pure _
  | _ => exact .inl ((watchSide_of_files (perform_keeps_files id)).ok run)

end MessageLens.Session
