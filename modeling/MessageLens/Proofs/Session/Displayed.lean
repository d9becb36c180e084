import MessageLens.Proofs.Message.Loading
import MessageLens.Proofs.Session.Interrupted
import MessageLens.Proofs.Session.Project

/-!
# The displayed locale and its messages

Settings name the locales of a project and, besides, its base locale, which is displayed where
nothing else is. Messages are loaded for the locales that are named, whether their files are there
or not, and the base locale need not be among them. A session therefore keeps messages only of
locales that settings on some disk of its run have named or that have been reloaded by name, and all
of them have been loaded on a disk of its run.
-/

namespace MessageLens.Session
set_option autoImplicit false

open Operation

variable {τ α : Type} {s s' t : Session τ} {u : Unit} {root : Path} {settings : ProjectSettings}
  {locale : String} {disks : Workspace → Prop} {asked : String → Prop}

/-- On one of the disks the settings of the project name the locale. -/
def Named (disks : Workspace → Prop) (s : Session τ) (locale : String) : Prop :=
  ∃ root w settings, s.project.root = some root ∧ disks w ∧
    loadSettings w root s.options.marker = .ok (.ok settings) ∧ locale ∈ settings.locales

/-- On one of the disks the message file of the locale holds the messages. -/
def Stored (disks : Workspace → Prop) (s : Session τ) (locale : String)
    (messages : MessageTable) : Prop :=
  ∃ root settings w records, s.project.root = some root ∧ s.project.settings = some settings ∧
    disks w ∧ loadMessages w root settings.pathPattern locale = .ok (messages, records)

/-- What a session knows of its project has been read on one of the disks, and it keeps and watches
messages only of locales that have been named there or that have been asked for. -/
structure Grounded (disks : Workspace → Prop) (asked : String → Prop) (s : Session τ) : Prop where
  here : disks s.workspace
  settings : ∀ settings, s.project.settings = some settings → ∃ root w,
    s.project.root = some root ∧ disks w ∧
      loadSettings w root s.options.marker = .ok (.ok settings)
  displayed : ∀ settings, s.project.settings = some settings →
    ∃ l, s.project.locale = some l ∧ (l ∈ settings.locales ∨ l = settings.baseLocale)
  messages : ∀ l m, s.project.messages.get? l = some m →
    (Named disks s l ∨ asked l) ∧ Stored disks s l m
  watched : ∀ p l, s.watcher.Watches p (.messages l) → Named disks s l

theorem Named.congr {l : String} (named : Named disks s l) (options : s'.options = s.options)
    (root : s'.project.root = s.project.root) : Named disks s' l := by
  obtain ⟨root', w, settings, found, on, read, mem⟩ := named
  exact ⟨root', w, settings, root.trans found, on, by rw [options]; exact read, mem⟩

theorem Named.of_editorSide {l : String} (named : Named disks s l)
    (same : editorSide s' = editorSide s) : Named disks s' l :=
  named.congr (congrArg EditorSide.options same) (congrArg EditorSide.root same)

/-- A callback leaves the root and the options as they are. -/
theorem Named.of_call {callback : SessionCallback} {p : Path} {l : String}
    (named : Named disks s l) (run : call callback p s = .ok u s') : Named disks s' l := by
  have refreshed : s' = s ∨ Refreshed s s' := by
    cases callback with
    | settings =>
      cases found : s.project.root with
      | some root => exact .inr (onSettingsChanged_refreshed found run)
      | none =>
        simp only [call, onSettingsChanged, bind_ok, read_ok, exists_both_eq, projectPart,
          found] at run
        exact .inl (pure_ok.1 run).2.symm
    | messages locale =>
      cases detected : s.project.isDetected with
      | true => exact .inr (onMessageFileChanged_refreshed detected run)
      | false =>
        simp only [call, onMessageFileChanged, bind_ok, read_ok, exists_both_eq, projectPart,
          detected] at run
        exact .inl (pure_ok.1 run).2.symm
  obtain rfl | ⟨t, same, drawn⟩ := refreshed
  · exact named
  · exact (named.of_editorSide same).congr (by rw [drawn.outside]) (by rw [drawn.outside])

namespace Grounded

theorem named (grounded : Grounded disks asked s) (usable : s.project.settings = some settings)
    (mem : locale ∈ settings.locales) : Named disks s locale := by
  obtain ⟨root, w, found, on, read⟩ := grounded.settings settings usable
  exact ⟨root, w, settings, found, on, read, mem⟩

theorem named_of_locales (grounded : Grounded disks asked s) (mem : locale ∈ s.project.locales) :
    Named disks s locale := by
  cases usable : s.project.settings with
  | none =>
    rw [ProjectState.locales, usable] at mem
    cases mem
  | some settings =>
    rw [ProjectState.locales, usable] at mem
    exact grounded.named usable mem

/-- What changes neither the project nor the disk and registers only what has been named. -/
theorem congr (grounded : Grounded disks asked s) (options : s'.options = s.options)
    (project : s'.project = s.project) (workspace : disks s'.workspace)
    (watches : ∀ p l, s'.watcher.Watches p (.messages l) →
      s.watcher.Watches p (.messages l) ∨ Named disks s l) : Grounded disks asked s' := by
  have root : s'.project.root = s.project.root := congrArg ProjectState.root project
  refine ⟨workspace, ?_, ?_, fun l m held => ?_, fun p l watched => ?_⟩
  · rw [project, options]
    exact grounded.settings
  · rw [project]
    exact grounded.displayed
  · rw [project] at held
    obtain ⟨named, stored⟩ := grounded.messages l m held
    refine ⟨named.imp_left fun named => named.congr options root, ?_⟩
    unfold Stored
    rw [project]
    exact stored
  · refine Named.congr ?_ options root
    obtain before | named := watches p l watched
    · exact grounded.watched p l before
    · exact named

theorem of_fileSide (grounded : Grounded disks asked s) (same : fileSide s' = fileSide s) :
    Grounded disks asked s' := by
  have workspace : s'.workspace = s.workspace := congrArg FileSide.workspace same
  have watcher : s'.watcher = s.watcher := congrArg FileSide.watcher same
  exact grounded.congr (congrArg FileSide.options same) (congrArg FileSide.project same)
    (workspace ▸ grounded.here) fun p l watched => .inl (watcher ▸ watched)

theorem of_files {x : SessionOperation τ α} (keeps : Keeps fileSide x) :
    Preserves (Grounded disks asked) x :=
  keeps.preserves fun _ _ same grounded => grounded.of_fileSide same

/-- Without a root nothing has been read. -/
theorem bare (grounded : Grounded disks asked s) (rootless : s.project.root = none) :
    s.project.settings = none ∧ (∀ l, s.project.messages.get? l = none) ∧
      ∀ p l, ¬ s.watcher.Watches p (.messages l) := by
  refine ⟨Option.eq_none_iff_forall_ne_some.2 fun settings usable => ?_, fun l =>
    Option.eq_none_iff_forall_ne_some.2 fun m held => ?_, fun p l watched => ?_⟩
  · obtain ⟨root, -, found, -⟩ := grounded.settings settings usable
    cases rootless.symm.trans found
  · obtain ⟨root, -, -, -, found, -⟩ := (grounded.messages l m held).2
    cases rootless.symm.trans found
  · obtain ⟨root, -, -, found, -⟩ := grounded.watched p l watched
    cases rootless.symm.trans found

/-! ## Watching -/

theorem watch {p : Path} {callback : SessionCallback} (grounded : Grounded disks asked s)
    (named : ∀ l, callback = .messages l → Named disks s l)
    (run : Session.watch p callback s = .ok u s') : Grounded disks asked s' := by
  have outside := (watch_registers run).1.outside
  have workspace : s'.workspace = s.workspace := by rw [outside]
  refine grounded.congr (by rw [outside]) (by rw [outside]) (workspace ▸ grounded.here) ?_
  exact fun q l watched => (watch_only run watched).imp_right fun same => named l same.2.symm

theorem watchSettingsFile :
    Preserves (Grounded disks asked) (Session.watchSettingsFile : SessionOperation τ Unit) := by
  intro s u s' grounded run
  simp only [Session.watchSettingsFile, bind_ok, change_ok, exists_unit_eq, get_ok,
    exists_both_eq] at run
  have cleared : Grounded disks asked (watcherPart.put s (watcherPart.get s).clear) := by
    refine grounded.congr rfl rfl grounded.here fun p l watched => ?_
    obtain ⟨x, mem, -⟩ := watched
    cases mem
  cases found : (watcherPart.put s (watcherPart.get s).clear).project.root with
  | none =>
    simp only [found] at run
    obtain ⟨-, rfl⟩ := pure_ok.1 run
    exact cleared
  | some root =>
    simp only [found] at run
    exact cleared.watch (fun _ own => SessionCallback.noConfusion own) run

theorem watchLocale (grounded : Grounded disks asked s) (named : Named disks s locale)
    (run : Session.watchLocale root settings locale s = .ok u s') : Grounded disks asked s' := by
  simp only [Session.watchLocale, bind_ok, get_ok, exists_both_eq] at run
  obtain ⟨there, t, tested, run⟩ := run
  have same : fileSide t = fileSide s := (keeps_attempt _ _).ok tested
  have grounded' := grounded.of_fileSide same
  obtain ⟨-, watched⟩ | ⟨-, unchanged⟩ := ite_ok.1 run
  · refine grounded'.watch (fun l own => ?_) watched
    obtain rfl := SessionCallback.messages.inj own
    exact named.congr (congrArg FileSide.options same) (congrArg (·.project.root) same)
  · obtain ⟨-, rfl⟩ := pure_ok.1 unchanged
    exact grounded'

/-- What is done for one locale after the other, all of which are named. -/
theorem forM_named {f : String → SessionOperation τ Unit} {ls : List String}
    (each : ∀ {l : String} {s s' : Session τ} {u : Unit}, Grounded disks asked s →
      Named disks s l → f l s = .ok u s' → Grounded disks asked s')
    (keeps : ∀ l, Keeps editorSide (f l)) (grounded : Grounded disks asked s)
    (named : ∀ l ∈ ls, Named disks s l) (run : ls.forM f s = .ok u s') :
    Grounded disks asked s' := by
  induction ls generalizing s with
  | nil =>
    obtain rfl := forM_nil_ok.1 run
    exact grounded
  | cons l rest ih =>
    obtain ⟨t, first, later⟩ := forM_cons_ok.1 run
    have same := (keeps l).ok first
    exact ih (each grounded (named l List.mem_cons_self) first)
      (fun l' mem => (named l' (List.mem_cons_of_mem l mem)).of_editorSide same) later

theorem setUpWatches :
    Preserves (Grounded disks asked) (Session.setUpWatches : SessionOperation τ Unit) := by
  refine watchSettingsFile.bind fun _ s u s' grounded run => ?_
  simp only [bind_ok, read_ok, exists_both_eq] at run
  cases found : (projectPart.get s).root with
  | none =>
    simp only [found] at run
    obtain ⟨-, rfl⟩ := pure_ok.1 run
    exact grounded
  | some root =>
    cases usable : (projectPart.get s).settings with
    | none =>
      simp only [found, usable] at run
      obtain ⟨-, rfl⟩ := pure_ok.1 run
      exact grounded
    | some settings =>
      simp only [found, usable] at run
      exact forM_named (fun grounded named watched => grounded.watchLocale named watched)
        (watchLocale_keeps_editor root settings) grounded
        (fun l mem => grounded.named usable mem) run

/-! ## Loading -/

theorem loadLocale (grounded : Grounded disks asked s)
    (wanted : Named disks s locale ∨ asked locale) (run : Session.loadLocale locale s = .ok u s') :
    Grounded disks asked s' := by
  obtain ⟨root, settings, messages, records, found, usable, read, outside⟩ := loadLocale_ok run
  have options : s'.options = s.options := by rw [outside]
  have root' : s'.project.root = s.project.root := by rw [outside]
  have settings' : s'.project.settings = s.project.settings := by rw [outside]
  have shown : s'.project.locale = s.project.locale := by rw [outside]
  refine ⟨?_, ?_, ?_, fun l m held => ?_, fun p l watched => ?_⟩
  · rw [outside]
    exact grounded.here
  · rw [settings', options, root']
    exact grounded.settings
  · rw [settings', shown]
    exact grounded.displayed
  · have kept : (Named disks s l ∨ asked l) ∧ Stored disks s l m := by
      rw [outside] at held
      by_cases own : l = locale
      · subst own
        obtain rfl := Option.some.inj ((Table.get?_set_self ..).symm.trans held)
        exact ⟨wanted, root, settings, s.workspace, records, found, usable, grounded.here, read⟩
      · exact grounded.messages l m ((Table.get?_set_ne _ own _).symm.trans held)
    refine ⟨kept.1.imp_left fun named => named.congr options root', ?_⟩
    unfold Stored
    rw [root', settings']
    exact kept.2
  · rw [outside] at watched
    exact (grounded.watched p l watched).congr options root'

theorem loadAllLocales :
    Preserves (Grounded disks asked) (Session.loadAllLocales : SessionOperation τ Unit) := by
  intro s u s' grounded run
  simp only [Session.loadAllLocales, bind_ok, read_ok, exists_both_eq, ite_ok] at run
  obtain ⟨-, loaded⟩ | ⟨-, unchanged⟩ := run
  · exact forM_named (fun grounded named loaded => grounded.loadLocale (.inl named) loaded)
      loadLocale_keeps_editor grounded (fun l mem => grounded.named_of_locales mem) loaded
  · obtain ⟨-, rfl⟩ := pure_ok.1 unchanged
    exact grounded

/-- The messages are dropped, while the settings may be dropped or replaced by ones that have been
read. -/
theorem drop {read : Option ProjectSettings} {shown : Option String}
    (grounded : Grounded disks asked s)
    (current : ∀ settings, read = some settings → ∃ root w, s.project.root = some root ∧ disks w ∧
      loadSettings w root s.options.marker = .ok (.ok settings))
    (displayed : ∀ settings, read = some settings →
      ∃ l, shown = some l ∧ (l ∈ settings.locales ∨ l = settings.baseLocale)) :
    Grounded disks asked { s with
      project := { s.project with settings := read, locale := shown, messages := ∅ } } where
  here := grounded.here
  settings := current
  displayed := displayed
  messages l m held := by cases held
  watched p l watched := (grounded.watched p l watched).congr rfl rfl

theorem applySettings (grounded : Grounded disks asked s) (found : s.project.root = some root)
    (current : loadSettings s.workspace root s.options.marker = .ok (.ok settings))
    (run : Session.applySettings settings s = .ok u s') : Grounded disks asked s' := by
  obtain ⟨_, t, changed, run⟩ := bind_ok.1 run
  obtain rfl := change_ok.1 changed
  refine loadAllLocales.bind (fun _ => setUpWatches) (grounded.drop ?_ ?_) run
  · intro settings' same
    obtain rfl := Option.some.inj same
    exact ⟨root, s.workspace, found, grounded.here, current⟩
  · intro settings' same
    obtain rfl := Option.some.inj same
    cases before : (projectPart.get s).locale with
    | none => exact ⟨settings.baseLocale, rfl, .inr rfl⟩
    | some l =>
      by_cases listed : l ∈ settings.locales
      · exact ⟨l, by simp only [if_pos listed], .inl listed⟩
      · exact ⟨settings.baseLocale, by simp only [if_neg listed], .inr rfl⟩

theorem onMessageFileChanged (grounded : Grounded disks asked s)
    (wanted : Named disks s locale ∨ asked locale)
    (run : Session.onMessageFileChanged locale s = .ok u s') : Grounded disks asked s' := by
  simp only [Session.onMessageFileChanged, bind_ok, read_ok, exists_both_eq, ite_ok] at run
  obtain ⟨-, _, t, logged, _, t', loaded, drawn⟩ | ⟨-, unchanged⟩ := run
  · have same := (emit_keeps_editor _).ok logged
    have quiet := of_files (emit_keeps_files _) grounded logged
    have wanted' := wanted.imp_left fun named => named.of_editorSide same
    exact of_files updateAll_keeps_files (quiet.loadLocale wanted' loaded) drawn
  · obtain ⟨-, rfl⟩ := pure_ok.1 unchanged
    exact grounded

theorem onSettingsChanged :
    Preserves (Grounded disks asked) (Session.onSettingsChanged : SessionOperation τ Unit) := by
  intro s u s' grounded run
  simp only [Session.onSettingsChanged, bind_ok, read_ok, exists_both_eq] at run
  cases found : (projectPart.get s).root with
  | none =>
    simp only [found] at run
    obtain ⟨-, rfl⟩ := pure_ok.1 run
    exact grounded
  | some root =>
    simp only [found, bind_ok] at run
    obtain ⟨read, t, reading, run⟩ := run
    obtain ⟨loaded, events, current, rfl, rfl⟩ := readSettings_ok reading
    have grounded' : Grounded disks asked { s with events := events } :=
      grounded.of_fileSide rfl
    cases loaded with
    | ok settings =>
      obtain ⟨_, t, applied, drawn⟩ := bind_ok.1 run
      exact of_files updateAll_keeps_files (grounded'.applySettings found current applied) drawn
    | error record =>
      obtain ⟨_, t, dropped, run⟩ := bind_ok.1 run
      obtain rfl := change_ok.1 dropped
      refine watchSettingsFile.bind (fun _ => of_files updateAll_keeps_files) ?_ run
      exact grounded'.drop (by simp) (by simp)

theorem refresh : Preserves (Grounded disks asked) (Session.refresh : SessionOperation τ Unit) := by
  intro s u s' grounded run
  have ending : Preserves (Grounded disks asked) (do
      updateAll
      log .info "Lazy Watson translations refreshed" : SessionOperation τ Unit) :=
    of_files (updateAll_keeps_files.bind fun _ => emit_keeps_files _)
  simp only [Session.refresh, bind_ok, read_ok, exists_both_eq] at run
  generalize project : projectPart.get s = p at run
  split at run
  · rename_i root _ _
    have found : s.project.root = some root := congrArg ProjectState.root project
    obtain ⟨read, t, reading, run⟩ := bind_ok.1 run
    obtain ⟨loaded, events, current, rfl, rfl⟩ := readSettings_ok reading
    have grounded' : Grounded disks asked { s with events := events } :=
      grounded.of_fileSide rfl
    cases loaded with
    | ok settings =>
      obtain ⟨_, t, applied, rest⟩ := bind_ok.1 run
      exact ending (grounded'.applySettings found current applied) rest
    | error record => exact ending grounded' run
  · obtain ⟨_, t, dropped, run⟩ := bind_ok.1 run
    obtain rfl := change_ok.1 dropped
    exact loadAllLocales.bind (fun _ => ending)
      (grounded.drop grounded.settings grounded.displayed) run

theorem selectLocale (locale : String) :
    Preserves (Grounded disks asked) (Session.selectLocale locale : SessionOperation τ Bool) := by
  intro s b s' grounded run
  have ending : Preserves (Grounded disks asked) (do
      updateAll
      log .info ("Locale set to: " ++ locale)
      return true : SessionOperation τ Bool) :=
    of_files (updateAll_keeps_files.bind fun _ => (emit_keeps_files _).bind fun _ => Keeps.pure _)
  obtain ⟨p, t, read, run⟩ := bind_ok.1 run
  obtain ⟨rfl, rfl⟩ := read_ok.1 read
  obtain ⟨-, refused⟩ | ⟨known, run⟩ := ite_ok.1 run
  · exact of_files (refuseLocale_keeps emit_keeps_files _) grounded refused
  · obtain ⟨_, t, chosen, run⟩ := bind_ok.1 run
    obtain rfl := change_ok.1 chosen
    have listed : locale ∈ s.project.locales :=
      Classical.byContradiction fun unlisted => known (.inr unlisted)
    have grounded' : Grounded disks asked
        { s with project := { s.project with locale := some locale } } := by
      refine ⟨grounded.here, grounded.settings, fun settings usable => ⟨locale, rfl, .inl ?_⟩,
        fun l m held => ?_, fun p l watched => (grounded.watched p l watched).congr rfl rfl⟩
      · have usable' : s.project.settings = some settings := usable
        rw [ProjectState.locales, usable'] at listed
        exact listed
      · obtain ⟨named, stored⟩ := grounded.messages l m held
        exact ⟨named.imp_left fun named => named.congr rfl rfl, stored⟩
    have named : Named disks { s with project := { s.project with locale := some locale } }
        locale := (grounded.named_of_locales listed).congr rfl rfl
    obtain ⟨-, run⟩ | ⟨-, rest⟩ := ite_ok.1 run
    · obtain ⟨_, t, loaded, rest⟩ := bind_ok.1 run
      exact ending (grounded'.loadLocale (.inl named) loaded) rest
    · exact ending grounded' rest

theorem discoverProject {file : Path} (grounded : Grounded disks asked s)
    (rootless : s.project.root = none) (run : Session.discoverProject file s = .ok u s') :
    Grounded disks asked s' := by
  simp only [Session.discoverProject, bind_ok, get_ok, exists_both_eq] at run
  obtain ⟨found, t, look, run⟩ := run
  have same : fileSide t = fileSide s := (keeps_attempt _ _).ok look
  have grounded := grounded.of_fileSide same
  have rootless : t.project.root = none := (congrArg (·.project.root) same).trans rootless
  cases found with
  | none =>
    obtain ⟨-, rfl⟩ := pure_ok.1 run
    exact grounded
  | some root =>
    obtain ⟨_, t', changed, run⟩ := bind_ok.1 run
    obtain ⟨read, t'', reading, run⟩ := bind_ok.1 run
    obtain ⟨loaded, events, current, rfl, rfl⟩ := readSettings_ok reading
    obtain rfl := change_ok.1 changed
    obtain ⟨unset, unloaded, unwatched⟩ := grounded.bare rootless
    have grounded' : Grounded disks asked
        { t with project := { t.project with root := some root }, events := events } := by
      refine ⟨grounded.here, fun settings usable => ?_, fun settings usable => ?_,
        fun l m held => ?_, fun p l watched => absurd watched (unwatched p l)⟩
      · cases unset.symm.trans usable
      · cases unset.symm.trans usable
      · cases (unloaded l).symm.trans held
    cases loaded with
    | ok settings =>
      obtain ⟨_, t, applied, logged⟩ := bind_ok.1 run
      exact of_files (emit_keeps_files _) (grounded'.applySettings rfl current applied) logged
    | error record => exact watchSettingsFile grounded' run

theorem attach (id : Handle) :
    Preserves (Grounded disks asked) (Session.attach id : SessionOperation τ Bool) := by
  intro s b s' grounded run
  obtain rfl | ⟨-, -, t, looked, drawn⟩ := attach_ok run
  · exact grounded
  have same : fileSide s' = fileSide t := by
    rw [drawn.outside]
    rfl
  obtain ⟨rootless, file, discovered⟩ | ⟨-, rfl⟩ := looked
  · exact (grounded.discoverProject rootless discovered).of_fileSide same
  · exact grounded.of_fileSide same

/-! ## Polling -/

theorem callAll {callbacks : List SessionCallback} {p : Path} (grounded : Grounded disks asked s)
    (named : ∀ l, .messages l ∈ callbacks → Named disks s l)
    (run : callbacks.forM (fun callback => call callback p) s = .ok u s') :
    Grounded disks asked s' := by
  induction callbacks generalizing s with
  | nil =>
    obtain rfl := forM_nil_ok.1 run
    exact grounded
  | cons callback rest ih =>
    obtain ⟨t, first, later⟩ := forM_cons_ok.1 run
    have grounded' : Grounded disks asked t := by
      cases callback with
      | settings => exact onSettingsChanged grounded first
      | messages l =>
        exact grounded.onMessageFileChanged (.inl (named l List.mem_cons_self)) first
    -- the first callback may have replaced the settings: the locales of the rest have been named
    -- on some disk, but the settings need not name them any more
    refine ih grounded' (fun l mem => ?_) later
    exact (named l (List.mem_cons_of_mem callback mem)).of_call first

theorem pollEach (watches : List (Watch SessionCallback)) : Preserves (Grounded disks asked)
    ((watchOwner call).pollEach watches : SessionOperation τ (List Path)) := by
  induction watches with
  | nil => exact Preserves.pure []
  | cons x rest ih =>
    intro s ps s' grounded run
    obtain ⟨stamp, t, looked, compared⟩ := bind_ok.1 run
    obtain ⟨-, rfl⟩ := stamp_ok.1 looked
    obtain ⟨-, later⟩ | ⟨-, differs⟩ := ite_ok.1 compared
    · exact ih grounded later
    · obtain ⟨w, t', read, later⟩ := bind_ok.1 differs
      obtain ⟨rfl, rfl⟩ := read_ok.1 read
      cases live : WatchOwner.live? ((watchOwner call).watcher.get t) x with
      | none =>
        simp only [live] at later
        exact ih grounded later
      | some now =>
        simp only [live, bind_ok] at later
        obtain ⟨_, t₁, recorded, _, t₂, reported, _, t₃, called, ps', t₄, rest', answered⟩ := later
        obtain ⟨-, rfl⟩ := pure_ok.1 answered
        obtain rfl := change_ok.1 recorded
        obtain rfl := modify_ok.1 reported
        have registered : now ∈ t.watcher.watches :=
          List.mem_of_find?_eq_some (Option.filter_eq_some_iff.1 live).1
        refine ih (callAll (p := now.path) ?_ (fun l mem => ?_) called) rest'
        · exact grounded.congr rfl rfl grounded.here fun p l watched => .inl watched.of_record
        · exact (grounded.watched now.path l ⟨now, registered, rfl, mem⟩).congr rfl rfl

theorem poll : Preserves (Grounded disks asked) (Session.poll : SessionOperation τ (List Path)) :=
  (Preserves.read watcherPart).bind fun w => pollEach w.watches

/-! ## Steps -/

/-- A step leaves the session grounded on disks that include the one it leads to. -/
theorem perform [Instant τ] {step : SessionStep} {answer : SessionAnswer}
    (grounded : Grounded disks asked s) (wanted : ∀ l, step = .messageFileChanged l → asked l)
    (next : disks s'.workspace) (run : Session.perform step s = .ok answer s') :
    Grounded disks asked s' := by
  have answers {α : Type} {x : SessionOperation τ α} {f : α → SessionAnswer}
      (preserves : Preserves (Grounded disks asked) x)
      (run : (x >>= fun a => pure (f a)) s = .ok answer s') : Grounded disks asked s' :=
    preserves.bind (fun _ => Preserves.pure _) grounded run
  cases step with
  | attach id => exact answers (attach id) run
  | refresh => exact answers refresh run
  | selectLocale l => exact answers (selectLocale l) run
  | loadAllLocales => exact answers loadAllLocales run
  | messageFileChanged l =>
    refine answers (fun _ _ _ grounded run => ?_) run
    exact grounded.onMessageFileChanged (.inr (wanted l rfl)) run
  | settingsChanged => exact answers onSettingsChanged run
  | close =>
    obtain ⟨_, t, closed, answered⟩ := bind_ok.1 run
    obtain ⟨-, rfl⟩ := pure_ok.1 answered
    simp only [close, closePanel, emit, bind_ok, change_ok, modify_ok, exists_unit_eq] at closed
    obtain rfl := closed
    refine grounded.congr rfl rfl grounded.here fun p l watched => ?_
    obtain ⟨x, mem, -⟩ := watched
    cases mem
  | poll => exact answers poll run
  | change c =>
    obtain ⟨_, t, changed, answered⟩ := bind_ok.1 run
    obtain ⟨-, rfl⟩ := pure_ok.1 answered
    simp only [changeFiles, bind_ok, get_ok, exists_both_eq, modify_ok] at changed
    obtain ⟨w, t', applied, rfl⟩ := changed
    have same : fileSide t' = fileSide s := (keeps_attempt _ _).ok applied
    exact (grounded.of_fileSide same).congr rfl rfl next fun p l watched => .inl watched
  | _ => exact of_files (perform_keeps_files id) grounded run

theorem start {s₀ : Session τ} (new : IsNew s₀) (here : disks s₀.workspace) :
    Grounded disks asked s₀ := by
  refine ⟨here, fun settings usable => ?_, fun settings usable => ?_, fun l m held => ?_,
    fun p l watched => ?_⟩
  · rw [new.project] at usable
    cases usable
  · rw [new.project] at usable
    cases usable
  · rw [new.project] at held
    cases held
  · rw [new.watcher] at watched
    obtain ⟨x, mem, -⟩ := watched
    cases mem

end Grounded

/-! ## Runs -/

variable [Instant τ] {s₀ : Session τ} {steps : List SessionStep}

/-- The disk that a run has found or left behind at some moment. -/
def DiskOf (s₀ : Session τ) (steps : List SessionStep) (w : Workspace) : Prop :=
  ∃ before after t, steps = before ++ after ∧ Run perform s₀ before t ∧ t.workspace = w

/-- Throughout a run the session is grounded on the disks of the run. -/
theorem grounded_of_run {before after : List SessionStep} (new : IsNew s₀)
    (split : steps = before ++ after) (run : Run perform s₀ before s) :
    Grounded (DiskOf s₀ steps) (fun l => .messageFileChanged l ∈ steps) s := by
  -- the disks are those of the whole run, of which only the beginning is taken apart
  induction run generalizing after with
  | start => exact .start new ⟨[], steps, s₀, rfl, .start, rfl⟩
  | next run performed ih =>
    have split' := split
    rw [List.append_assoc] at split'
    refine (ih split').perform (fun l own => ?_) ?_ performed
    · simp [split, own]
    · exact ⟨_, after, _, split, run.next performed, rfl⟩

/-! ## Annotations -/

theorem primarySegment_missingLocale {options : VirtualTextOptions} {current : MessageTable}
    {key : String} :
    (primarySegment options current key).2 = .missingLocale ↔ current = ∅ := by
  rw [primarySegment]
  cases found : current.get? key with
  | some message =>
    constructor
    · intro missing
      cases missing
    · rintro rfl
      cases found
  | none =>
    rw [← Table.isEmpty_iff]
    by_cases empty : current.isEmpty = true
    · rw [if_pos empty]
      exact iff_of_true rfl empty
    · rw [if_neg empty]
      exact iff_of_false (fun missing => by cases missing) empty

omit [Instant τ] in
/-- References find the locale missing if and only if the displayed locale has no messages. -/
theorem missingLocale_iff {text : String} {a : Annotation} (mem : a ∈ s.annotationsOfText text) :
    a.status = .missingLocale ↔ s.project.currentMessages = ∅ := by
  obtain ⟨r, -, rfl⟩ := List.mem_map.1 mem
  exact primarySegment_missingLocale

omit [Instant τ] in
theorem currentMessages_empty_iff (shown : s.project.locale = some locale) :
    s.project.currentMessages = ∅ ↔
      locale = "" ∨ s.project.messages.get? locale = none ∨
        s.project.messages.get? locale = some ∅ := by
  simp only [ProjectState.currentMessages, shown, Catalog.messages]
  by_cases unnamed : locale = ""
  · simp [unnamed]
  · cases held : s.project.messages.get? locale with
    | none => simp [unnamed]
    | some m => simp [unnamed]

/-! ## The displayed locale -/

/-- In a run in which nothing fails, the settings of a detected project have been read on a disk of
the run, and they name the displayed locale or have it as their base. A locale that they name has
messages. The base that they do not name has messages only if settings on some disk of the run have
named it or if it has been reloaded by name. Messages of the displayed locale are those of its file
on a disk of the run, and references find the locale missing if and only if its name is empty or
nothing has been loaded for it or nothing has been found in its file. -/
theorem displayed_locale (new : IsNew s₀) (run : Run perform s₀ steps s)
    (detected : s.project.isDetected = true) :
    ∃ root settings l w, s.project.root = some root ∧ s.project.settings = some settings ∧
      s.project.locale = some l ∧ DiskOf s₀ steps w ∧
      loadSettings w root s.options.marker = .ok (.ok settings) ∧
      (l ∈ settings.locales ∧ s.project.messages.contains l = true ∨
        l ∉ settings.locales ∧ l = settings.baseLocale ∧
          (s.project.messages.contains l = true →
            Named (DiskOf s₀ steps) s l ∨ .messageFileChanged l ∈ steps)) ∧
      (∀ m, s.project.messages.get? l = some m → ∃ w records, DiskOf s₀ steps w ∧
        loadMessages w root settings.pathPattern l = .ok (m, records)) ∧
      ∀ text, ∀ a ∈ s.annotationsOfText text, (a.status = .missingLocale ↔
        l = "" ∨ s.project.messages.get? l = none ∨ s.project.messages.get? l = some ∅) := by
  have grounded := grounded_of_run new (List.append_nil steps).symm run
  have coherent := coherent_of_run new run
  simp only [ProjectState.isDetected, Bool.and_eq_true] at detected
  obtain ⟨settings, usable⟩ := Option.isSome_iff_exists.1 detected.2
  obtain ⟨root, w, found, on, read⟩ := grounded.settings settings usable
  obtain ⟨l, shown, listed⟩ := grounded.displayed settings usable
  refine ⟨root, settings, l, w, found, usable, shown, on, read, ?_, fun m held => ?_,
    fun text a mem => (missingLocale_iff mem).trans (currentMessages_empty_iff shown)⟩
  · by_cases mem : l ∈ settings.locales
    · exact .inl ⟨mem, coherent.loaded settings usable l mem⟩
    · refine .inr ⟨mem, listed.resolve_left mem, fun contained => ?_⟩
      obtain ⟨m, held⟩ := Table.contains_iff.1 contained
      exact (grounded.messages l m held).1
  · obtain ⟨root', settings', w', records, found', usable', on', loaded⟩ :=
      (grounded.messages l m held).2
    obtain rfl := Option.some.inj (found.symm.trans found')
    obtain rfl := Option.some.inj (usable.symm.trans usable')
    exact ⟨w', records, on', loaded⟩

/-- The settings of a project come to name another locale, which is their base too. -/
def localeReplaced : List SessionStep :=
  [.openBuffer "/p/a.ts" (some "m.k()"), .attach (.number 1),
    .change (.write ⟨.root, ["p", "project.inlang", "settings.json"]⟩ settings.toUTF8.toList none),
    .poll]
where
  settings := "\x7b\"baseLocale\": \"de\", \"locales\": [\"de\"], \"pathPattern\": \"de.json\"\x7d"

theorem displayed_locale_localeReplaced : IsNew (onDisk nestedProject) ∧
    ∃ s, Run perform (onDisk nestedProject) localeReplaced s ∧ s.project.isDetected = true ∧
      s.project.locale = some "de" ∧ s.project.messages.contains "de" = true ∧
      ∀ text, ∀ a ∈ s.annotationsOfText text, (a.status = .missingLocale ↔
        "de" = "" ∨ s.project.messages.get? "de" = none ∨
          s.project.messages.get? "de" = some ∅) := by
  obtain ⟨_, s, all, seen⟩ := ok_of_succeedsWith
    (x := localeReplaced.forM fun step => discard (perform step)) (s := onDisk nestedProject)
    (p := fun _ s => s.project.isDetected && s.project.locale = some "de" &&
      s.project.locales = ["de"]) (by decide +kernel)
  simp only [Bool.and_eq_true, decide_eq_true_eq] at seen
  obtain ⟨⟨detected, shown⟩, named⟩ := seen
  have run := Run.of_forM all
  obtain ⟨root, settings, l, w, -, usable, shown', -, -, held, -, statuses⟩ :=
    displayed_locale (onDisk_isNew _) run detected
  obtain rfl := Option.some.inj (shown.symm.trans shown')
  have listed : "de" ∈ settings.locales := by
    rw [ProjectState.locales, usable] at named
    exact List.mem_of_mem_head? (congrArg List.head? named)
  obtain ⟨-, contained⟩ | ⟨unlisted, -⟩ := held
  · exact ⟨onDisk_isNew _, s, run, detected, shown, contained, statuses⟩
  · exact absurd listed unlisted

/-- A project whose settings do not name its base locale, which has messages. -/
def unnamedBase : Disk :=
  ⟨[(["p"], .directory 0), (["p", "project.inlang"], .directory 0),
    (["p", "project.inlang", "settings.json"], .file settings.toUTF8.toList 0),
    (["p", "en.json"], .file messages.toUTF8.toList 0)]⟩
where
  settings := "\x7b\"baseLocale\": \"en\", \"locales\": [\"de\"], " ++
    "\"pathPattern\": \"./\x7blanguageTag\x7d.json\"\x7d"
  messages := "\x7b\"k\": \"v\"\x7d"
  pattern := "./\x7blanguageTag\x7d.json"

theorem unnamedBase_parsed :
    Json.ofBytes? unnamedBase.messages.toUTF8.toList = some (.obj [("k", .str "v")]) := by
  cbv

theorem unnamedBase_messages :
    loadMessages { disk := unnamedBase } ⟨.root, ["p"]⟩ unnamedBase.pattern "en" =
      .ok (⟨[("k", "v")]⟩, []) := by
  have path : messagePath ⟨.root, ["p"]⟩ unnamedBase.pattern "en" = ⟨.root, ["p", "en.json"]⟩ := by
    decide +kernel
  have content : Workspace.read { disk := unnamedBase } ⟨.root, ["p", "en.json"]⟩ =
      .ok unnamedBase.messages.toUTF8.toList := rfl
  have flattened : flatten (.obj [("k", .str "v")]) = .ok ⟨[("k", "v")]⟩ := by
    simp only [flatten, flattenMembers, pure_bind]
    rfl
  rw [loadMessages_of_document, flattened]
  · rfl
  · rw [path]
    simp only [readMessageFile, content, unnamedBase_parsed]

/-- The base locale is displayed and has not been loaded, so a reference finds it missing although
its file holds the message. -/
theorem unnamed_base_not_loaded : IsNew (onDisk unnamedBase) ∧
    ∃ s, Run perform (onDisk unnamedBase)
        [.openBuffer "/p/a.ts" (some "m.k()"), .attach (.number 1)] s ∧
      s.project.isDetected = true ∧ s.project.locale = some "en" ∧
      s.project.settings.map (·.pathPattern) = some unnamedBase.pattern ∧
      s.project.messages.contains "en" = false ∧
      loadMessages s.workspace ⟨.root, ["p"]⟩ unnamedBase.pattern "en" =
        .ok (⟨[("k", "v")]⟩, []) ∧
      ∃ a ∈ s.annotationsOfText "m.k()", a.status = .missingLocale := by
  obtain ⟨_, s, all, seen⟩ := ok_of_succeedsWith
    (x := [SessionStep.openBuffer "/p/a.ts" (some "m.k()"), .attach (.number 1)].forM
      fun step => discard (perform step)) (s := onDisk unnamedBase)
    (p := fun _ s => s.project.isDetected && s.project.locale = some "en" &&
      s.project.settings.map (·.pathPattern) = some unnamedBase.pattern &&
      s.project.messages.contains "en" = false &&
      s.workspace = { disk := unnamedBase } &&
      (s.annotationsOfText "m.k()").any fun a => a.status = .missingLocale) (by decide +kernel)
  simp only [Bool.and_eq_true, decide_eq_true_eq, List.any_eq_true] at seen
  obtain ⟨⟨⟨⟨⟨detected, shown⟩, pattern⟩, unloaded⟩, same⟩, missing⟩ := seen
  exact ⟨onDisk_isNew _, s, Run.of_forM all, detected, shown, pattern, unloaded,
    same ▸ unnamedBase_messages, missing⟩

end MessageLens.Session
