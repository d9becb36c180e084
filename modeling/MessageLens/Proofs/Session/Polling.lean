import MessageLens.Proofs.Session.Files

/-!
# What polling notices

A poll compares the stamps of the watched files with those of the disk that the session has looked
at before. Of what has changed it loads the messages anew; once it comes upon a changed settings
file it renews everything, and the watches that it has begun with are passed over.
-/

namespace MessageLens
set_option autoImplicit false

open Operation

/-- What two operations have come to can be compared. -/
instance decEqOutcome {ε α : Type} [DecidableEq ε] [DecidableEq α] : DecidableEq (Except ε α)
  | .ok a, .ok b => decidable_of_iff (a = b) ⟨congrArg _, Except.ok.inj⟩
  | .error e, .error e' => decidable_of_iff (e = e') ⟨congrArg _, Except.error.inj⟩
  | .ok _, .error _ | .error _, .ok _ => isFalse nofun

variable {τ : Type}

namespace Session

variable {s s' t : Session τ} {u : Unit} {locale : String}

/-! ## Callbacks -/

/-- Nothing has changed that the watches depend on, the same locale is displayed, and fresh messages
have stayed fresh. -/
structure Steady (s s' : Session τ) : Prop where
  watchSide : watchSide s' = watchSide s
  workspace : s'.workspace = s.workspace
  locale : s'.project.locale = s.project.locale
  fresh : ∀ locale, Fresh s locale → Fresh s' locale

theorem Steady.refl (s : Session τ) : Steady s s := ⟨rfl, rfl, rfl, fun _ fresh => fresh⟩

theorem Steady.trans (first : Steady s t) (second : Steady t s') : Steady s s' :=
  ⟨second.watchSide.trans first.watchSide, second.workspace.trans first.workspace,
    second.locale.trans first.locale,
    fun locale fresh => second.fresh locale (first.fresh locale fresh)⟩

theorem Loads.steady (loads : Loads s s') : Steady s s' := by
  refine ⟨loads.watchSide_eq, ?_, ?_, loads.fresh⟩
  · rw [loads.outside]
  · rw [loads.outside]

theorem Steady.of_fileSide (same : fileSide s' = fileSide s) : Steady s s' := by
  have project : s'.project = s.project := congrArg FileSide.project same
  have workspace : s'.workspace = s.workspace := congrArg FileSide.workspace same
  refine ⟨congrArg FileSide.watches same, workspace, congrArg ProjectState.locale project,
    fun locale fresh => ?_⟩
  unfold Fresh
  rw [project, workspace]
  exact fresh

theorem Steady.renewed (steady : Steady s t) (renewed : Renewed t s') : Renewed s s' := by
  have root : t.project.root = s.project.root := congrArg WatchSide.root steady.watchSide
  exact renewed.of_start (congrArg WatchSide.options steady.watchSide) steady.workspace
    (congrArg (fun w => w.watcher.begun) steady.watchSide) (fun _ found => root.trans found)
    steady.locale

theorem Renewed.steady (renewed : Renewed s t) (steady : Steady t s') : Renewed s s' :=
  renewed.of_end (congrArg WatchSide.options steady.watchSide) steady.workspace
    (congrArg WatchSide.root steady.watchSide) (congrArg WatchSide.settings steady.watchSide)
    (congrArg WatchSide.watcher steady.watchSide) steady.locale steady.fresh

/-- Of two renewals on one disk the second one finds the settings of the first. -/
theorem Renewed.trans (first : Renewed s t) (second : Renewed t s') : Renewed s s' := by
  obtain ⟨root, found⟩ := Option.isSome_iff_exists.1 first.found
  obtain ⟨loaded, read, usable⟩ := first.read root found
  have settings : s'.project.settings = t.project.settings := by
    obtain ⟨loaded', read', usable'⟩ := second.read root (second.root root found)
    rw [first.workspace, first.options, read] at read'
    rw [usable', usable, Except.ok.inj read']
  obtain ⟨options, workspace, found', root', begun, inStep, watching, posted, fresh, read',
    shown⟩ := second
  rw [first.workspace] at inStep watching
  rw [first.workspace, first.options] at read'
  rw [first.shown, ← settings, shownAfter_shownAfter] at shown
  exact ⟨options.trans first.options, workspace.trans first.workspace, found',
    fun r found => root' r (first.root r found), Nat.lt_trans first.begun begun,
    inStep.mono (Nat.le_of_lt first.begun), watching, posted, fresh, read', shown⟩

/-- Callbacks have loaded the messages that they are for and no others, without renewing the
session. -/
structure Reloaded (callbacks : List SessionCallback) (s s' : Session τ) : Prop where
  steady : Steady s s'
  rootless : .settings ∈ callbacks → s.project.root = none
  fresh : ∀ locale, .messages locale ∈ callbacks → Fresh s' locale
  others : ∀ locale, .messages locale ∉ callbacks →
    s'.project.messages.get? locale = s.project.messages.get? locale

theorem Reloaded.nil (s : Session τ) : Reloaded [] s s :=
  ⟨Steady.refl s, by simp, by simp, fun _ _ => rfl⟩

theorem Reloaded.cons {callback : SessionCallback} {rest : List SessionCallback}
    (first : Reloaded [callback] s t) (later : Reloaded rest t s') :
    Reloaded (callback :: rest) s s' := by
  have root : t.project.root = s.project.root := congrArg WatchSide.root first.steady.watchSide
  refine ⟨first.steady.trans later.steady, fun mem => ?_, fun locale mem => ?_,
    fun locale free => ?_⟩
  · rcases List.mem_cons.1 mem with own | mem
    · exact first.rootless (List.mem_singleton.2 own)
    · exact root.symm.trans (later.rootless mem)
  · rcases List.mem_cons.1 mem with own | mem
    · exact later.steady.fresh locale (first.fresh locale (List.mem_singleton.2 own))
    · exact later.fresh locale mem
  · rw [List.mem_cons, not_or] at free
    rw [later.others locale free.2, first.others locale (by simpa using free.1)]

theorem onMessageFileChanged_reloaded (run : onMessageFileChanged locale s = .ok u s') :
    Reloaded [.messages locale] s s' := by
  simp only [onMessageFileChanged, bind_ok, read_ok, exists_both_eq, ite_ok] at run
  obtain ⟨-, _, t, logged, _, t', loaded, drawn⟩ | ⟨undetected, unchanged⟩ := run
  · have quiet := Steady.of_fileSide ((emit_keeps_files _).ok logged)
    have settled := Steady.of_fileSide (updateAll_keeps_files.ok drawn)
    have messages : t.project.messages = s.project.messages :=
      congrArg (·.project.messages) ((emit_keeps_files _).ok logged)
    have messages' : s'.project.messages = t'.project.messages :=
      congrArg (·.project.messages) (updateAll_keeps_files.ok drawn)
    obtain ⟨loads, fresh⟩ := loadLocale_loads loaded
    refine ⟨quiet.trans (loads.steady.trans settled), by simp, fun l mem => ?_, fun l free => ?_⟩
    · obtain rfl := SessionCallback.messages.inj (List.mem_singleton.1 mem)
      exact settled.fresh l fresh
    · obtain ⟨_, _, texts, _, -, -, -, outside⟩ := loadLocale_ok loaded
      rw [messages', outside, ← messages]
      apply Table.get?_set_ne
      rintro rfl
      exact free (List.mem_singleton_self _)
  · obtain ⟨-, rfl⟩ := pure_ok.1 unchanged
    refine ⟨Steady.refl s, by simp, fun l _ root settings found usable => absurd ?_ undetected,
      fun _ _ => rfl⟩
    show (s.project.root.isSome && s.project.settings.isSome) = true
    rw [found, usable]
    rfl

/-- A callback for messages loads them; one for settings renews the session. -/
theorem call_ok {callback : SessionCallback} {p : Path} (run : call callback p s = .ok u s') :
    Reloaded [callback] s s' ∨ callback = .settings ∧ Renewed s s' := by
  cases callback with
  | settings =>
    cases found : s.project.root with
    | some root => exact .inr ⟨rfl, onSettingsChanged_renewed found run⟩
    | none =>
      simp only [call, onSettingsChanged, bind_ok, read_ok, exists_both_eq, projectPart,
        found] at run
      obtain ⟨-, rfl⟩ := pure_ok.1 run
      exact .inl ⟨Steady.refl s, fun _ => found, by simp, fun _ _ => rfl⟩
  | messages locale => exact .inl (onMessageFileChanged_reloaded run)

theorem callAll_ok {callbacks : List SessionCallback} {p : Path}
    (run : callbacks.forM (fun callback => call callback p) s = .ok u s') :
    Reloaded callbacks s s' ∨ .settings ∈ callbacks ∧ Renewed s s' := by
  induction callbacks generalizing s with
  | nil =>
    obtain rfl := forM_nil_ok.1 run
    exact .inl (Reloaded.nil s)
  | cons callback rest ih =>
    obtain ⟨t, first, later⟩ := forM_cons_ok.1 run
    obtain reloaded | ⟨rfl, renewed⟩ := call_ok first <;>
      obtain reloaded' | ⟨mem, renewed'⟩ := ih later
    · exact .inl (reloaded.cons reloaded')
    · exact .inr ⟨List.mem_cons_of_mem callback mem, reloaded.steady.renewed renewed'⟩
    · exact .inr ⟨List.mem_cons_self, renewed.steady reloaded'.steady⟩
    · exact .inr ⟨List.mem_cons_self, renewed.trans renewed'⟩

/-! ## Polls -/

/-- What a part of a poll has done that has not renewed the session. The watches in `done` had been
dealt with before, those in `dealt` have been dealt with since, and those in `rest` are left. -/
structure Passed (done dealt rest : List (Watch SessionCallback)) (s s' : Session τ) : Prop where
  options : s'.options = s.options
  workspace : s'.workspace = s.workspace
  root : s'.project.root = s.project.root
  settings : s'.project.settings = s.project.settings
  locale : s'.project.locale = s.project.locale
  watcher : s'.watcher =
    ⟨done ++ (dealt.map (·.restamp s.workspace) ++ rest), s.watcher.begun⟩
  present : ∀ x ∈ dealt, s.workspace.stamp? x.path = .ok (x.restamp s.workspace).stamp
  fresh : ∀ locale, Fresh s locale → Fresh s' locale
  noticed : ∀ x ∈ dealt, s.workspace.stamp? x.path ≠ .ok x.stamp →
    (.settings ∈ x.callbacks → s.project.root = none) ∧
      ∀ locale, .messages locale ∈ x.callbacks → Fresh s' locale
  others : ∀ locale, (∀ x ∈ dealt, s.workspace.stamp? x.path ≠ .ok x.stamp →
      .messages locale ∉ x.callbacks) →
    s'.project.messages.get? locale = s.project.messages.get? locale

variable {done dealt rest : List (Watch SessionCallback)} {x : Watch SessionCallback}
  {stamp : Option FileStamp} {ps : List Path}

theorem Passed.nil (watches : s.watcher.watches = done) : Passed done [] [] s s where
  options := rfl
  workspace := rfl
  root := rfl
  settings := rfl
  locale := rfl
  watcher := by rw [List.map_nil, List.append_nil, List.append_nil, ← watches]
  present _ mem := absurd mem List.not_mem_nil
  fresh _ fresh := fresh
  noticed _ mem := absurd mem List.not_mem_nil
  others _ _ := rfl

theorem Passed.cons (first : Passed done [x] dealt s t)
    (later : Passed (done ++ [x.restamp s.workspace]) dealt [] t s') :
    Passed done (x :: dealt) [] s s' := by
  have workspace := first.workspace
  refine ⟨later.options.trans first.options, later.workspace.trans workspace,
    later.root.trans first.root, later.settings.trans first.settings,
    later.locale.trans first.locale, ?_, ?_,
    fun locale fresh => later.fresh locale (first.fresh locale fresh), ?_, fun locale free => ?_⟩
  · rw [later.watcher, workspace, first.watcher, List.append_assoc]
    rfl
  · intro y mem
    obtain rfl | mem := List.mem_cons.1 mem
    · exact first.present y List.mem_cons_self
    · exact workspace ▸ later.present y mem
  · intro y mem changed
    obtain rfl | mem := List.mem_cons.1 mem
    · obtain ⟨noRoot, loaded⟩ := first.noticed y List.mem_cons_self changed
      exact ⟨noRoot, fun locale mem => later.fresh locale (loaded locale mem)⟩
    · obtain ⟨noRoot, loaded⟩ := later.noticed y mem (workspace ▸ changed)
      exact ⟨fun mem => first.root ▸ noRoot mem, loaded⟩
  · rw [later.others locale fun y mem changed =>
        free y (List.mem_cons_of_mem x mem) (workspace ▸ changed),
      first.others locale fun y mem changed => ?_]
    obtain rfl := List.mem_singleton.1 mem
    exact free y List.mem_cons_self changed

/-- Nothing is done about a watch whose stamp is that of the disk. -/
theorem Passed.same (watches : s.watcher.watches = done ++ x :: rest)
    (present : s.workspace.stamp? x.path = .ok x.stamp) : Passed done [x] rest s s := by
  have kept : x.restamp s.workspace = x := Watch.restamp_of_ok present
  refine ⟨rfl, rfl, rfl, rfl, rfl, ?_, fun y mem => ?_, fun _ fresh => fresh,
    fun y mem changed => ?_, fun _ _ => rfl⟩
  · rw [List.map_singleton, kept, List.singleton_append, ← watches]
  · obtain rfl := List.mem_singleton.1 mem
    rw [kept, present]
  · obtain rfl := List.mem_singleton.1 mem
    exact absurd present changed

/-- What is done about a watch whose stamp differs from that of the disk. -/
def notice (x : Watch SessionCallback) (stamp : Option FileStamp) : SessionOperation τ Unit := do
  watcherPart.change (·.record x.path stamp)
  emit (.logged (WatchOwner.changeRecord x.path))
  x.callbacks.forM fun callback => call callback x.path

theorem notice_ok (watches : s.watcher.watches = done ++ x :: rest)
    (paths : ((done ++ x :: rest).map (·.path)).Nodup)
    (present : s.workspace.stamp? x.path = .ok stamp) (differs : stamp ≠ x.stamp)
    (run : notice x stamp s = .ok u s') :
    Passed done [x] rest s s' ∨ .settings ∈ x.callbacks ∧ Renewed s s' := by
  have restamped := Watch.restamp_of_ok present
  obtain ⟨_, t, recorded, run⟩ := bind_ok.1 run
  obtain ⟨_, t', reported, called⟩ := bind_ok.1 run
  obtain rfl := change_ok.1 recorded
  obtain rfl := modify_ok.1 reported
  obtain ⟨steady, noRoot, loaded, others⟩ | ⟨mem, renewed⟩ := callAll_ok (p := x.path) called
  · have watcher := congrArg WatchSide.watcher steady.watchSide
    have changed : s.workspace.stamp? x.path ≠ .ok x.stamp := fun same =>
      differs (Except.ok.inj (present.symm.trans same))
    refine .inl ⟨congrArg WatchSide.options steady.watchSide, steady.workspace,
      congrArg WatchSide.root steady.watchSide, congrArg WatchSide.settings steady.watchSide,
      steady.locale, watcher.trans ?_, fun y mem => ?_,
      fun locale fresh => steady.fresh locale (by exact fresh), fun y mem _ => ?_,
      fun locale free => others locale (free x (List.mem_singleton_self x) changed)⟩
    · show Watcher.record ⟨s.watcher.watches, s.watcher.begun⟩ x.path stamp = _
      rw [watches, Watcher.record_append paths, List.map_singleton, restamped,
        List.singleton_append]
    · obtain rfl := List.mem_singleton.1 mem
      rw [restamped, present]
    · obtain rfl := List.mem_singleton.1 mem
      exact ⟨noRoot, loaded⟩
  · exact .inr ⟨mem, renewed.of_start rfl rfl rfl (fun _ found => found) rfl⟩

/-- A watch of the settings file has another stamp than its file. -/
def SettingsMoved (s : Session τ) (watches : List (Watch SessionCallback)) : Prop :=
  ∃ x ∈ watches, .settings ∈ x.callbacks ∧ s.workspace.stamp? x.path ≠ .ok x.stamp

theorem pollEach_ok (watches : s.watcher.watches = done ++ rest)
    (paths : ((done ++ rest).map (·.path)).Nodup)
    (older : ∀ x ∈ rest, x.registration < s.watcher.begun)
    (run : (watchOwner call).pollEach rest s = .ok ps s') :
    Passed done rest [] s s' ∨ SettingsMoved s rest ∧ Renewed s s' := by
  induction rest generalizing s done ps with
  | nil =>
    obtain ⟨-, rfl⟩ := pure_ok.1 run
    exact .inl (Passed.nil (by rw [watches, List.append_nil]))
  | cons x rest ih =>
    have others : ∀ y ∈ rest, y.registration < s.watcher.begun := fun y mem =>
      older y (List.mem_cons_of_mem x mem)
    obtain ⟨stamp, t, looked, compared⟩ := bind_ok.1 run
    obtain ⟨present, rfl⟩ := stamp_ok.1 looked
    -- the watches that are left, once this one has been passed
    have next : ∀ {s₁ ps}, Passed done [x] rest t s₁ →
        (watchOwner call).pollEach rest s₁ = .ok ps s' →
        Passed done (x :: rest) [] t s' ∨ SettingsMoved t (x :: rest) ∧ Renewed t s' := by
      intro s₁ ps passed later
      have begun : s₁.watcher.begun = t.watcher.begun := by rw [passed.watcher]
      have same : Passed (done ++ [x.restamp t.workspace]) rest [] s₁ s' ∨
          SettingsMoved s₁ rest ∧ Renewed s₁ s' :=
        ih (by rw [passed.watcher, List.append_assoc]; rfl) (by simpa using paths)
          (begun ▸ others) later
      refine same.imp passed.cons ?_
      rintro ⟨⟨y, mem, registered, moved⟩, renewed⟩
      rw [passed.workspace] at moved
      exact ⟨⟨y, List.mem_cons_of_mem x mem, registered, moved⟩,
        renewed.of_start passed.options passed.workspace begun
          (fun _ found => passed.root.trans found) passed.locale⟩
    obtain ⟨same, later⟩ | ⟨differs, later⟩ := ite_ok.1 compared
    · exact next (Passed.same watches (same ▸ present)) later
    · have live : WatchOwner.live? ((watchOwner call).watcher.get t) x = some x :=
        WatchOwner.live?_of_mem (by exact watches ▸ paths) (by
          show x ∈ t.watcher.watches
          simp [watches])
      simp only [bind_ok, read_ok, exists_both_eq, live] at later
      obtain ⟨_, t₁, recorded, _, t₂, reported, _, t₃, called, ps', t₄, later, answered⟩ := later
      obtain ⟨-, rfl⟩ := pure_ok.1 answered
      have noticed : notice x stamp t = .ok () t₃ :=
        bind_ok.2 ⟨_, t₁, recorded, bind_ok.2 ⟨_, t₂, reported, called⟩⟩
      obtain passed | ⟨registered, renewed⟩ := notice_ok watches paths present differs noticed
      · exact next passed later
      · -- whatever is registered now has been registered after the watches that are left
        have stale : ∀ y ∈ rest, WatchOwner.live? t₃.watcher y = none := fun y mem =>
          WatchOwner.live?_of_older fun z registered =>
            Nat.lt_of_lt_of_le (others y mem) (renewed.inStep.since z registered)
        have ended :=
          WatchOwner.pollEach_stale (fun _ _ _ looked => (stamp_ok.1 looked).2) stale later
        have moved : t.workspace.stamp? x.path ≠ .ok x.stamp := fun same =>
          differs (Except.ok.inj (present.symm.trans same))
        exact .inr ⟨⟨x, List.mem_cons_self, registered, moved⟩, ended ▸ renewed⟩

/-- A poll passes the watches, each with what it has noticed, or it comes upon a changed settings
file and renews the session. -/
theorem poll_ok (paths : (s.watcher.watches.map (·.path)).Nodup)
    (begun : ∀ x ∈ s.watcher.watches, x.registration < s.watcher.begun)
    (run : poll s = .ok ps s') :
    Passed [] s.watcher.watches [] s s' ∨
      SettingsMoved s s.watcher.watches ∧ Renewed s s' := by
  obtain ⟨w, t, read, run⟩ := bind_ok.1 run
  obtain ⟨rfl, rfl⟩ := read_ok.1 read
  exact pollEach_ok rfl paths begun run

end Session

end MessageLens
