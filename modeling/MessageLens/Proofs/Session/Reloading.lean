import MessageLens.Proofs.Session.Polling
import MessageLens.Proofs.Session.Project

/-!
# What a poll loads

In a run in which no step fails the watches are those of the settings file and of the message files
of the locales, and the watch of a message file calls for every locale whose file it is. So a poll
that finds the settings file as it was loads the messages of exactly those locales whose files have
changed, also when several locales share a file.
-/

namespace MessageLens
set_option autoImplicit false

open Operation

variable {τ : Type}

namespace Session

variable {s₀ s s' : Session τ} {root : Path} {settings : ProjectSettings} {answer : SessionAnswer}

/-! ## Watches throughout a run -/

theorem Posted.of_watchSide (posted : Posted s) (same : watchSide s' = watchSide s) : Posted s' :=
  posted.congr (congrArg WatchSide.options same) (congrArg WatchSide.root same)
    (congrArg WatchSide.settings same) (congrArg WatchSide.watcher same)

/-- A poll that passes all watches keeps them for what they are for. -/
theorem Posted.of_passed (posted : Posted s) (passed : Passed [] s.watcher.watches [] s s') :
    Posted s' := by
  have watcher : s'.watcher =
      ⟨s.watcher.watches.map (·.restamp s.workspace), s.watcher.begun⟩ := by
    rw [passed.watcher, List.nil_append, List.append_nil]
  have file (root : Path) : s'.settingsFile root = s.settingsFile root :=
    settingsFile_congr passed.options root
  have before (p : Path) (c : SessionCallback) (watched : s'.watcher.Watches p c) :
      s.watcher.Watches p c := by
    rw [watcher] at watched
    exact watched.of_restamp
  constructor
  · rw [watcher, Watch.map_restamp_path]
    exact posted.paths
  · intro x mem
    rw [watcher] at mem ⊢
    obtain ⟨y, old, rfl⟩ := List.mem_map.1 mem
    rw [Watch.restamp_registration]
    exact posted.begun y old
  · intro p watched
    obtain ⟨root, found, path⟩ := posted.settings p (before p _ watched)
    exact ⟨root, passed.root.trans found, path.trans (file root).symm⟩
  · intro p l watched
    obtain ⟨root, settings, found, usable, mem, path⟩ := posted.messages p l (before p _ watched)
    exact ⟨root, settings, passed.root.trans found, passed.settings.trans usable, mem, path⟩
  · intro root settings found usable l mem x watch here
    rw [passed.root] at found
    rw [passed.settings] at usable
    rw [watcher] at watch
    obtain ⟨y, old, rfl⟩ := List.mem_map.1 watch
    rw [Watch.restamp_path] at here
    rw [Watch.restamp_path, Watch.restamp_callbacks, file]
    exact posted.complete root settings found usable l mem y old here

variable [Instant τ] {step : SessionStep} {steps : List SessionStep}

/-- A step that succeeds leaves no watch without a purpose and none without its callbacks. -/
theorem perform_posted (coherent : s.project.Coherent) (posted : Posted s)
    (performed : perform step s = .ok answer s') : Posted s' := by
  by_cases closes : step = .close
  · subst closes
    have unwatched : (leaves (perform .close) s).watcher.watches = [] := rfl
    rw [leaves_ok performed] at unwatched
    exact Posted.of_none unwatched
  by_cases polls : step = .poll
  · subst polls
    obtain ⟨ps, t, polled, answered⟩ := bind_ok.1 performed
    obtain ⟨-, rfl⟩ := pure_ok.1 answered
    obtain passed | ⟨-, renewed⟩ := poll_ok posted.paths posted.begun polled
    · exact posted.of_passed passed
    · exact renewed.posted
  have bare : s.project.root = none → s.project.settings = none := by
    intro rootless
    apply Classical.byContradiction
    intro usable
    have rooted := coherent.rooted (Option.isSome_iff_ne_none.2 usable)
    rw [rootless] at rooted
    cases rooted
  obtain same | renewed := perform_watchSide polls closes bare performed
  · exact posted.of_watchSide same
  · exact renewed.posted

theorem posted_of_run (new : IsNew s₀) (run : Run perform s₀ steps s) : Posted s := by
  induction run with
  | start =>
    apply Posted.of_none
    rw [new.watcher]
  | next run performed ih => exact perform_posted (coherent_of_run new run) ih performed

/-! ## Polls -/

/-- The message file of a locale is watched, and its stamp is not the one that the watch holds. -/
def MessagesMoved (s : Session τ) (root : Path) (settings : ProjectSettings) (locale : String) :
    Prop :=
  ∃ x ∈ s.watcher.watches, x.path = messagePath root settings.pathPattern locale ∧
    s.workspace.stamp? x.path ≠ .ok x.stamp

omit [Instant τ] in
instance (s : Session τ) (root : Path) (settings : ProjectSettings) (locale : String) :
    Decidable (MessagesMoved s root settings locale) :=
  inferInstanceAs (Decidable (∃ x ∈ s.watcher.watches,
    x.path = messagePath root settings.pathPattern locale ∧
      s.workspace.stamp? x.path ≠ .ok x.stamp))

omit [Instant τ] in
/-- The messages that a poll which has passed all watches has loaded are those whose files had
changed. -/
theorem Passed.messages (posted : Posted s) (passed : Passed [] s.watcher.watches [] s s')
    (found : s.project.root = some root) (usable : s.project.settings = some settings)
    (still : ∀ x ∈ s.watcher.watches, x.path = s.settingsFile root →
      s.workspace.stamp? x.path = .ok x.stamp) (locale : String) :
    (locale ∈ settings.locales → MessagesMoved s root settings locale → Fresh s' locale) ∧
    (¬ (locale ∈ settings.locales ∧ MessagesMoved s root settings locale) →
      s'.project.messages.get? locale = s.project.messages.get? locale) := by
  constructor
  · rintro mem ⟨x, watch, here, moved⟩
    -- the watch calls for the locale, since it is not the one of the settings file
    obtain file | registered := posted.complete root settings found usable locale mem x watch here
    · exact absurd (still x watch file) moved
    · exact (passed.noticed x watch moved).2 locale registered
  · intro untouched
    apply passed.others
    intro x watch moved registered
    obtain ⟨root', settings', found', usable', mem, here⟩ :=
      posted.messages x.path locale ⟨x, watch, rfl, registered⟩
    obtain rfl := Option.some.inj (found.symm.trans found')
    obtain rfl := Option.some.inj (usable.symm.trans usable')
    exact untouched ⟨mem, x, watch, here, moved⟩

/-- A poll that finds the settings file as it was loads the messages of exactly the locales whose
watched message files have changed, and changes nothing else that the session knows of its project
or watches. -/
theorem poll_loads_what_changed (new : IsNew s₀) (run : Run perform s₀ steps s)
    (found : s.project.root = some root) (usable : s.project.settings = some settings)
    (still : ∀ x ∈ s.watcher.watches, x.path = s.settingsFile root →
      s.workspace.stamp? x.path = .ok x.stamp)
    (polled : perform .poll s = .ok answer s') :
    (∀ locale ∈ settings.locales, MessagesMoved s root settings locale →
      ∃ messages records,
        loadMessages s'.workspace root settings.pathPattern locale = .ok (messages, records) ∧
          s'.project.messages.get? locale = some messages) ∧
    (∀ locale, ¬ (locale ∈ settings.locales ∧ MessagesMoved s root settings locale) →
      s'.project.messages.get? locale = s.project.messages.get? locale) ∧
    (∀ locale, s'.project.messages.contains locale = s.project.messages.contains locale) ∧
    s'.project.settings = some settings ∧ s'.project.locale = s.project.locale ∧
    s'.project.root = some root ∧ s'.watcher.paths = s.watcher.paths ∧
    s'.workspace = s.workspace := by
  have posted := posted_of_run new run
  have coherent := coherent_of_run new run
  obtain ⟨ps, t, poll, answered⟩ := bind_ok.1 polled
  obtain ⟨-, rfl⟩ := pure_ok.1 answered
  obtain passed | ⟨⟨x, watch, registered, moved⟩, -⟩ := poll_ok posted.paths posted.begun poll
  · have root' := passed.root.trans found
    have settings' := passed.settings.trans usable
    have messages := passed.messages posted found usable still
    refine ⟨fun locale mem moved => (messages locale).1 mem moved root settings root' settings',
      fun locale => (messages locale).2, fun locale => ?_, settings', passed.locale, root', ?_,
      passed.workspace⟩
    · by_cases loads : locale ∈ settings.locales ∧ MessagesMoved s root settings locale
      · have old := coherent.loaded settings usable locale loads.1
        obtain ⟨_, _, -, kept⟩ := (messages locale).1 loads.1 loads.2 root settings root' settings'
        rw [old, Table.contains, kept]
        rfl
      · rw [Table.contains, Table.contains, (messages locale).2 loads]
    · rw [Watcher.paths, Watcher.paths, passed.watcher, List.nil_append, List.append_nil,
        Watch.map_restamp_path]
  · -- the watch of the settings file cannot have changed
    obtain ⟨root', found', file⟩ := posted.settings x.path ⟨x, watch, rfl, registered⟩
    obtain rfl := Option.some.inj (found.symm.trans found')
    exact absurd (still x watch file) moved

/-- Two locales, of which one is named twice, share a message file that is emptied. -/
def sharedMessages : List SessionStep :=
  [writeSettings settings.toUTF8.toList none, .change (.write ⟨.root, ["p", "m.json"]⟩ [0] none),
    .openBuffer "/p/a.ts" (some "m.k()"), .attach (.number 1),
    .change (.write ⟨.root, ["p", "m.json"]⟩ [] none)]
where
  settings := "\x7b\"baseLocale\": \"en\", \"locales\": [\"en\", \"de\", \"en\"], " ++
    "\"pathPattern\": \"m.json\"\x7d"

theorem poll_loads_what_changed_sharedMessages : (onDisk nestedProject).IsNew ∧
    ∃ s answer s' root settings, Run perform (onDisk nestedProject) sharedMessages s ∧
      s.project.root = some root ∧ s.project.settings = some settings ∧
      settings.locales = ["en", "de", "en"] ∧
      (∀ x ∈ s.watcher.watches, x.path = s.settingsFile root →
        s.workspace.stamp? x.path = .ok x.stamp) ∧
      perform .poll s = .ok answer s' ∧
      MessagesMoved s root settings "de" ∧ (∃ messages records,
        loadMessages s'.workspace root settings.pathPattern "de" = .ok (messages, records) ∧
          s'.project.messages.get? "de" = some messages) ∧
      s'.project.messages.get? "fr" = s.project.messages.get? "fr" ∧
      s'.watcher.paths = s.watcher.paths := by
  have new := onDisk_isNew nestedProject
  obtain ⟨_, s, all, polls⟩ := ok_of_succeedsWith
    (x := sharedMessages.forM fun step => discard (perform step)) (s := onDisk nestedProject)
    (p := fun _ s => succeedsWith (fun _ _ => s.project.root.any fun root =>
      s.project.settings.any fun settings => settings.locales = ["en", "de", "en"] ∧
        (∀ x ∈ s.watcher.watches, x.path = s.settingsFile root →
          s.workspace.stamp? x.path = .ok x.stamp) ∧
        MessagesMoved s root settings "de") (perform .poll) s)
    (by decide +kernel)
  obtain ⟨answer, s', polled, changed⟩ := ok_of_succeedsWith polls
  simp only [Option.any_eq_true, decide_eq_true_eq] at changed
  obtain ⟨root, found, settings, usable, locales, still, moved⟩ := changed
  have run := Run.of_forM all
  obtain ⟨loads, others, -, -, -, -, paths, -⟩ :=
    poll_loads_what_changed new run found usable still polled
  have other : ¬ ("fr" ∈ settings.locales ∧ MessagesMoved s root settings "fr") := by
    rw [locales]
    simp
  exact ⟨new, s, answer, s', root, settings, run, found, usable, locales, still, polled, moved,
    loads "de" (by simp [locales]) moved, others "fr" other, paths⟩

end Session

end MessageLens
