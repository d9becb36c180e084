import MessageLens.Proofs.Session.Recovery
import MessageLens.Proofs.Session.Reloading

/-!
# The locale that has been selected

The displayed locale changes in two ways only: another one is selected, or settings are put in force
that do not name it, and then it is their base locale. Settings that cannot be used leave it alone.
So a locale that has been selected stays until one of these happens.
-/

namespace MessageLens
set_option autoImplicit false

open Operation

namespace Session

variable {τ : Type} {s s' : Session τ} {u : Unit} {root : Path} {settings : ProjectSettings}
  {locale : String}

/-- The settings in the settings file of a root, if they can be used. -/
def usable? (s : Session τ) (root : Path) : Option ProjectSettings :=
  match loadSettings s.workspace root s.options.marker with
  | .ok (.ok settings) => some settings
  | _ => none

instance (s : Session τ) (watches : List (Watch SessionCallback)) :
    Decidable (SettingsMoved s watches) :=
  inferInstanceAs (Decidable (∃ x ∈ watches, .settings ∈ x.callbacks ∧
    s.workspace.stamp? x.path ≠ .ok x.stamp))

/-- The settings that a step puts in force: those of a project that attaching a buffer finds, those
that are tried again or have been announced to be others, and those that a poll finds changed. -/
def applied (s : Session τ) : SessionStep → Option ProjectSettings
  | .attach id =>
    if id ∈ s.attached ∨ s.project.root.isSome then none
    else match s.host.buffers.get? id with
      | none => none
      | some b =>
        if b.path = "" || !isSourcePath (Path.parse b.path) then none
        else match findProjectRoot s.workspace (Path.parse b.path) s.options.marker with
          | .ok (some root) => s.usable? root
          | _ => none
  | .refresh => if s.project.settings.isSome then none else s.project.root.bind s.usable?
  | .settingsChanged => s.project.root.bind s.usable?
  | .poll => if SettingsMoved s s.watcher.watches then s.project.root.bind s.usable? else none
  | _ => none

/-! ## Operations -/

/-- Settings that have been read anew keep the displayed locale if they name it, and if they cannot
be used. -/
theorem Renewed.displays (renewed : Renewed s s') (found : s.project.root = some root) :
    s'.project.locale = shownAfter (s.usable? root) s.project.locale := by
  obtain ⟨loaded, read, settings⟩ := renewed.read root (renewed.root root found)
  have same : s'.project.settings = s.usable? root := by
    rw [settings, usable?, read]
    cases loaded <;> rfl
  rw [renewed.shown, same]

theorem selectLocale_locale {b : Bool} (run : selectLocale locale s = .ok b s') :
    s'.project.locale = if b then some locale else s.project.locale := by
  obtain ⟨messages, project⟩ := selectLocale_project run
  exact congrArg (·.locale) project

/-- Without settings no locale can be selected. -/
theorem selectLocale_usable (run : selectLocale locale s = .ok true s') :
    s.project.settings.isSome = true := by
  obtain ⟨p, t, read, run⟩ := bind_ok.1 run
  obtain ⟨rfl, rfl⟩ := read_ok.1 read
  obtain ⟨-, refused⟩ | ⟨known, -⟩ := ite_ok.1 run
  · cases refuseLocale_answer refused
  · apply Classical.byContradiction
    intro unusable
    exact known (.inl (Option.isNone_iff_eq_none.2 (Option.not_isSome_iff_eq_none.1 unusable)))

/-- Without settings in force a refresh tries those in the settings file. -/
theorem refresh_retries (found : s.project.root = some root)
    (unusable : s.project.settings = none) : refresh s = (do
      match ← readSettings root with
      | some settings => applySettings settings
      | none => pure ()
      updateAll
      log .info "Lazy Watson translations refreshed" : SessionOperation τ Unit) s := by
  obtain ⟨_, _, _, ⟨root, settings, _, _⟩, _, _, _, _, _, _⟩ := s
  cases found
  cases unusable
  rfl

theorem refresh_locale (found : s.project.root = some root) (run : refresh s = .ok u s') :
    s'.project.locale = shownAfter (s.applied .refresh) s.project.locale := by
  cases usable : s.project.settings with
  | some settings =>
    have kept := (refresh_usable found usable run).1
    rw [applied, usable, kept]
    rfl
  | none =>
    have tries : s.applied .refresh = s.usable? root := by
      rw [applied, usable, found]
      rfl
    rw [refresh_retries found usable] at run
    obtain ⟨read, t, reading, rest⟩ := bind_ok.1 run
    obtain ⟨loaded, events, current, rfl, rfl⟩ := readSettings_ok reading
    cases loaded with
    | ok settings =>
      obtain ⟨_, t, adopted, ended⟩ := bind_ok.1 rest
      have renewed := applySettings_renewed (by exact found) (by exact current) adopted
      have settled := renewed.of_fileSide ((updateAll_log_keeps_files _).ok ended)
      rw [tries]
      exact (settled.of_start rfl rfl rfl (fun _ first => first) rfl).displays found
    | error record =>
      have unusable : s.usable? root = none := by rw [usable?, current]
      have kept := (updateAll_log_keeps_files _).ok rest
      rw [tries, unusable]
      exact congrArg (·.project.locale) kept

theorem onSettingsChanged_locale (found : s.project.root = some root)
    (run : onSettingsChanged s = .ok u s') :
    s'.project.locale = shownAfter (s.applied .settingsChanged) s.project.locale := by
  rw [applied, found]
  exact (onSettingsChanged_renewed found run).displays found

/-- A poll reads the settings only if their file has changed. -/
theorem poll_locale {ps : List Path} (posted : Posted s) (found : s.project.root = some root)
    (run : poll s = .ok ps s') :
    s'.project.locale = shownAfter (s.applied .poll) s.project.locale := by
  obtain passed | ⟨moved, renewed⟩ := poll_ok posted.paths posted.begun run
  · have still : ¬ SettingsMoved s s.watcher.watches := by
      rintro ⟨x, watch, registered, moved⟩
      have rootless := (passed.noticed x watch moved).1 registered
      rw [found] at rootless
      cases rootless
    rw [applied, if_neg still, passed.locale]
    rfl
  · rw [applied, if_pos moved, found]
    exact renewed.displays found

/-! ## Steps -/

variable [Instant τ] {s₀ s₁ s₂ s₃ : Session τ} {step : SessionStep} {answer : SessionAnswer}
  {steps more : List SessionStep}

/-- The locale that a step displays, given its answer. -/
def displaysNext (s : Session τ) (step : SessionStep) (answer : SessionAnswer) : Option String :=
  match step, answer with
  | .selectLocale locale, .flag true => some locale
  | step, _ => shownAfter (s.applied step) s.project.locale

/-- Once a root is known, a step that succeeds displays another locale only if that has been
selected or if it puts settings in force. -/
theorem perform_locale (posted : Posted s) (found : s.project.root = some root)
    (performed : perform step s = .ok answer s') :
    s'.project.locale = s.displaysNext step answer := by
  have known : s.project.root.isSome = true := by rw [found]; rfl
  cases step with
  | attach id =>
    obtain ⟨b, t, attached, answered⟩ := bind_ok.1 performed
    obtain ⟨rfl, rfl⟩ := pure_ok.1 answered
    rw [(attach_found found attached).1, displaysNext, applied, if_pos (.inr known)]
    · rfl
    · nofun
  | refresh =>
    obtain ⟨b, t, refreshed, answered⟩ := bind_ok.1 performed
    obtain ⟨rfl, rfl⟩ := pure_ok.1 answered
    exact refresh_locale found refreshed
  | selectLocale locale =>
    obtain ⟨b, t, selected, answered⟩ := bind_ok.1 performed
    obtain ⟨rfl, rfl⟩ := pure_ok.1 answered
    rw [selectLocale_locale selected]
    cases b <;> rfl
  | loadAllLocales =>
    obtain ⟨b, t, loaded, answered⟩ := bind_ok.1 performed
    obtain ⟨rfl, rfl⟩ := pure_ok.1 answered
    exact (loadAllLocales_loads loaded).1.steady.locale
  | messageFileChanged locale =>
    obtain ⟨b, t, changed, answered⟩ := bind_ok.1 performed
    obtain ⟨rfl, rfl⟩ := pure_ok.1 answered
    exact (onMessageFileChanged_reloaded changed).steady.locale
  | settingsChanged =>
    obtain ⟨b, t, changed, answered⟩ := bind_ok.1 performed
    obtain ⟨rfl, rfl⟩ := pure_ok.1 answered
    exact onSettingsChanged_locale found changed
  | close =>
    have same := close_project s
    rw [leaves_ok performed] at same
    exact congrArg ProjectState.locale same
  | poll =>
    obtain ⟨ps, t, polled, answered⟩ := bind_ok.1 performed
    obtain ⟨rfl, rfl⟩ := pure_ok.1 answered
    exact poll_locale posted found polled
  | change c =>
    have keeps : Keeps (fun s : Session τ => s.project.locale) (changeFiles c) :=
      changeFiles_keeps (fun _ _ => rfl) c
    obtain ⟨_, t, changed, answered⟩ := bind_ok.1 performed
    obtain ⟨rfl, rfl⟩ := pure_ok.1 answered
    exact keeps.ok changed
  | _ => exact congrArg (·.project.locale) ((perform_keeps_files id).ok performed)

/-! ## Runs -/

/-- In the steps that follow, settings that are put in force name the locale, and no other locale is
selected. -/
structure Favours (locale : String) (s : Session τ) (steps : List SessionStep) : Prop where
  lists : ∀ before step after t settings, steps = before ++ step :: after →
    Run perform s before t → t.applied step = some settings → locale ∈ settings.locales
  selects : ∀ before other after t t', steps = before ++ .selectLocale other :: after →
    Run perform s before t → perform (.selectLocale other) t = .ok (.flag true) t' →
      other = locale

theorem Favours.init (favours : Favours locale s (steps ++ [step])) : Favours locale s steps := by
  constructor
  · intro before first after t settings split
    exact favours.lists before first (after ++ [step]) t settings (by rw [split]; simp)
  · intro before other after t t' split
    exact favours.selects before other (after ++ [step]) t t' (by rw [split]; simp)

omit [Instant τ] in
theorem displaysNext_applied (put : s.applied step = some settings) :
    s.displaysNext step answer = some (settings.displayed s.project.locale) := by
  unfold displaysNext
  split
  · -- selecting a locale puts no settings in force
    cases put
  · rw [put, shownAfter]

omit [Instant τ] in
/-- One step of such a run goes on displaying the locale. -/
theorem displaysNext_favoured (shown : s.project.locale = some locale)
    (lists : ∀ settings, s.applied step = some settings → locale ∈ settings.locales)
    (selects : ∀ other, step = .selectLocale other → answer = .flag true → other = locale) :
    s.displaysNext step answer = some locale := by
  unfold displaysNext
  split
  · rename_i other
    rw [selects other rfl rfl]
  · rw [shown]
    cases put : s.applied step with
    | none => rfl
    | some settings =>
      rw [shownAfter, ProjectSettings.displayed, if_pos (lists settings put)]

/-- A locale that is displayed while a root is known stays displayed, as long as it is favoured. -/
theorem locale_stays (coherent : s.project.Coherent) (posted : Posted s)
    (found : s.project.root = some root) (shown : s.project.locale = some locale)
    (run : Run perform s steps s') (favours : Favours locale s steps) :
    Posted s' ∧ s'.project.Coherent ∧ s'.project.root = some root ∧
      s'.project.locale = some locale := by
  induction run with
  | start => exact ⟨posted, coherent, found, shown⟩
  | @next steps t t' step answer run performed ih =>
    obtain ⟨posted, coherent, found, shown⟩ := ih favours.init
    obtain ⟨coherent', root'⟩ := perform_coherent coherent performed
    refine ⟨perform_posted coherent posted performed, coherent', root' root found, ?_⟩
    rw [perform_locale posted found performed]
    apply displaysNext_favoured shown
    · intro settings put
      exact favours.lists steps step [] t settings rfl run put
    · rintro other rfl rfl
      exact favours.selects steps other [] t t' rfl run performed

/-- In a run in which no step fails, a locale that has been selected is displayed until another one
is selected or settings are put in force that do not name it, and then it gives way to their base
locale. -/
theorem selected_locale_stays (new : IsNew s₀) (run : Run perform s₀ steps s)
    (selected : perform (.selectLocale locale) s = .ok (.flag true) s₁)
    (later : Run perform s₁ more s₂) (favours : Favours locale s₁ more) :
    s₂.project.locale = some locale ∧
    ∀ step answer s₃ settings, perform step s₂ = .ok answer s₃ →
      s₂.applied step = some settings → locale ∉ settings.locales →
        s₃.project.locale = some settings.baseLocale := by
  have coherent := coherent_of_run new run
  have posted := posted_of_run new run
  obtain ⟨b, t, select, answered⟩ := bind_ok.1 selected
  obtain ⟨flag, rfl⟩ := pure_ok.1 answered
  obtain rfl : b = true := SessionAnswer.flag.inj flag
  obtain ⟨root, found⟩ := Option.isSome_iff_exists.1 (coherent.rooted (selectLocale_usable select))
  obtain ⟨coherent₁, root₁⟩ := perform_coherent coherent selected
  have posted₁ := perform_posted coherent posted selected
  obtain ⟨posted₂, -, found₂, shown⟩ :=
    locale_stays coherent₁ posted₁ (root₁ root found) (selectLocale_locale select) later favours
  refine ⟨shown, fun step answer s₃ settings performed put unlisted => ?_⟩
  rw [perform_locale posted₂ found₂ performed, displaysNext_applied put, shown,
    ProjectSettings.displayed, if_neg unlisted]

/-- The step does not select another locale. -/
def selectsNoOther (locale : String) (s : Session τ) : SessionStep → Bool
  | .selectLocale other =>
    other = locale ||
      !succeedsWith (fun answer _ => answer = .flag true) (perform (.selectLocale other)) s
  | _ => true

/-- Every step of the run favours the locale. -/
def favoursThroughout (locale : String) (s : Session τ) : List SessionStep → Bool
  | [] => true
  | step :: rest =>
    (s.applied step).all (fun settings => locale ∈ settings.locales) &&
      selectsNoOther locale s step && favoursThroughout locale (leaves (perform step) s) rest

theorem favours_of_favoursThroughout (check : favoursThroughout locale s steps = true) :
    Favours locale s steps := by
  induction steps generalizing s with
  | nil =>
    constructor
    · intro before step after t settings split
      simp at split
    · intro before other after t t' split
      simp at split
  | cons first rest ih =>
    rw [favoursThroughout, Bool.and_eq_true, Bool.and_eq_true] at check
    obtain ⟨⟨lists, selects⟩, later⟩ := check
    have tail {before : List SessionStep} {t : Session τ}
        (run : Run perform s (first :: before) t) :
        Run perform (leaves (perform first) s) before t := by
      obtain ⟨s', begun, continued⟩ := forM_cons_ok.1 run.forM
      obtain ⟨answer, performed⟩ := discard_ok.1 begun
      rw [leaves_ok performed]
      exact Run.of_forM continued
    constructor
    · intro before step after t settings split run put
      cases before with
      | nil =>
        obtain ⟨rfl, -⟩ := List.cons.inj split
        obtain rfl := run.unique .start
        rw [put] at lists
        simpa using lists
      | cons head before =>
        obtain ⟨rfl, rfl⟩ := List.cons.inj split
        exact (ih later).lists before step after t settings rfl (tail run) put
    · intro before other after t t' split run selected
      cases before with
      | nil =>
        obtain ⟨rfl, -⟩ := List.cons.inj split
        obtain rfl := run.unique .start
        rw [selectsNoOther, succeedsWith, selected] at selects
        simpa using selects
      | cons head before =>
        obtain ⟨rfl, rfl⟩ := List.cons.inj split
        exact (ih later).selects before other after t t' rfl (tail run) selected

/-- The settings cannot be used for a while; then they are those with two locales again. -/
def throughTrouble : List SessionStep :=
  [writeSettings [0] none, .poll, .refresh,
    writeSettings sharedMessages.settings.toUTF8.toList none, .refresh, .toggle,
    .selectLocale "fr", .attach (.number 1), .settingsChanged,
    writeSettings nestedProject.settings.toUTF8.toList none]

theorem selected_locale_stays_throughTrouble : (onDisk nestedProject).IsNew ∧
    ∃ s s₁ s₂ answer s₃ settings, Run perform (onDisk nestedProject) sharedMessages s ∧
      perform (.selectLocale "de") s = .ok (.flag true) s₁ ∧ Run perform s₁ throughTrouble s₂ ∧
      Favours "de" s₁ throughTrouble ∧ s₂.project.locale = some "de" ∧
      perform .poll s₂ = .ok answer s₃ ∧ s₂.applied .poll = some settings ∧
      "de" ∉ settings.locales ∧ s₃.project.locale = some settings.baseLocale := by
  have new := onDisk_isNew nestedProject
  obtain ⟨_, s, begun, selects⟩ := ok_of_succeedsWith (s := onDisk nestedProject)
    (x := sharedMessages.forM fun step => discard (perform step))
    (p := fun _ s => succeedsWith (fun answer s₁ => answer = .flag true &&
      favoursThroughout "de" s₁ throughTrouble &&
      succeedsWith (fun _ s₂ => succeedsWith (fun _ _ => (s₂.applied .poll).any fun settings =>
          "de" ∉ settings.locales) (perform .poll) s₂)
        (throughTrouble.forM fun step => discard (perform step)) s₁)
      (perform (.selectLocale "de")) s)
    (by decide +kernel)
  obtain ⟨_, s₁, selected, rest⟩ := ok_of_succeedsWith selects
  simp only [Bool.and_eq_true, decide_eq_true_eq] at rest
  obtain ⟨⟨rfl, check⟩, polls⟩ := rest
  obtain ⟨_, s₂, later, polled⟩ := ok_of_succeedsWith polls
  obtain ⟨answer, s₃, performed, put⟩ := ok_of_succeedsWith polled
  simp only [Option.any_eq_true, decide_eq_true_eq] at put
  obtain ⟨settings, put, unlisted⟩ := put
  have favours := favours_of_favoursThroughout check
  have run := Run.of_forM begun
  have run' := Run.of_forM later
  obtain ⟨shown, gives⟩ := selected_locale_stays new run selected run' favours
  exact ⟨new, s, s₁, s₂, answer, s₃, settings, run, selected, run', favours, shown, performed, put,
    unlisted, gives _ _ _ _ performed put unlisted⟩

end Session

end MessageLens
