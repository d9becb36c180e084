import MessageLens.Proofs.Session.Files

/-!
# Why operations fail

Drawing does not fail, nor does anything that a timer does. Editing fails only where it names a
buffer that is not open, a file that cannot be read or a delay that is too long. Reading the files
of a project fails only where one of the files does, and what it has done until then stays done.
-/

namespace MessageLens.Session
set_option autoImplicit false

open Operation

variable {τ α : Type} {s s' t : Session τ} {e : SessionFailure} {root : Path}
  {settings : ProjectSettings} {locale : String} {id : Handle}

/-! ## Drawing, editing and timers -/

theorem avoids_attempt {ε : Type} {cause : ε → SessionFailure} {x : Except ε α}
    (other : ∀ c, cause c ≠ e) : Avoids e (attempt cause x : SessionOperation τ α) := by
  cases x with
  | ok a => exact Avoids.pure a
  | error c => exact Avoids.throw (other c)

theorem buffer_error : buffer id s = .error e s' ↔
    s.host.buffers.get? id = none ∧ .unknownBuffer id = e ∧ s = s' := by
  simp only [buffer, bind_error, read_error, read_ok, exists_both_eq, false_or, hostPart]
  cases s.host.buffers.get? id with
  | none => simp
  | some b => simp

theorem buffer_avoids (id : Handle) :
    Avoids .noProject (buffer id : SessionOperation τ Buffer) := by
  intro s s' run
  cases (buffer_error.1 run).2.1

/-- Drawing does not fail at all. -/
theorem updateBuffer_avoids (id : Handle) :
    Avoids e (updateBuffer id : SessionOperation τ Unit) := by
  intro s s' run
  obtain ⟨t, drawn, -⟩ := updateBuffer_ok id s
  rw [drawn] at run
  cases run

theorem updateAll_avoids : Avoids e (updateAll : SessionOperation τ Unit) :=
  Avoids.get.bind fun _ => Avoids.forM updateBuffer_avoids _

theorem enable_avoids : Avoids e (enable : SessionOperation τ Unit) :=
  (Avoids.modify _).bind fun _ => updateAll_avoids

theorem clearBuffer_avoids (id : Handle) : Avoids e (clearBuffer id : SessionOperation τ Unit) :=
  (Avoids.modify _).bind fun _ => Avoids.get.bind fun _ => Avoids.change _ _

theorem disable_avoids : Avoids e (disable : SessionOperation τ Unit) :=
  (Avoids.modify _).bind fun _ => (Avoids.change _ _).bind fun _ => Avoids.get.bind fun _ =>
    Avoids.forM (fun id => (Avoids.read _).bind fun _ =>
      Avoids.ite (clearBuffer_avoids id) (Avoids.pure ())) _

theorem toggle_avoids : Avoids e (toggle : SessionOperation τ Bool) :=
  Avoids.get.bind fun _ => Avoids.ite
    (disable_avoids.bind fun _ => (Avoids.modify _).bind fun _ => Avoids.get.bind fun _ =>
      Avoids.pure _)
    (enable_avoids.bind fun _ => (Avoids.modify _).bind fun _ => Avoids.get.bind fun _ =>
      Avoids.pure _)

theorem closePanel_avoids : Avoids e (closePanel : SessionOperation τ Unit) :=
  (Avoids.modify _).bind fun _ => Avoids.change _ _

theorem closeHover_avoids : Avoids e (closeHover : SessionOperation τ Unit) :=
  (Avoids.change _ _).bind fun _ => closePanel_avoids

/-- The panel can be opened for the cursor of any buffer that is open. -/
theorem showHover_error (run : showHover id s = .error e s') :
    s.host.buffers.get? id = none ∧ .unknownBuffer id = e := by
  obtain failed | ⟨key, t, -, opening⟩ := bind_error.1 run
  · simp only [keyAtCursor, keyAt, bind_error, buffer_error, buffer_ok, get_error, pure_error,
      and_false, exists_false, or_false] at failed
    obtain ⟨closed, cause, -⟩ | ⟨b, _, ⟨isOpen, rfl⟩, closed, -⟩ := failed
    · exact ⟨closed, cause⟩
    · rw [isOpen] at closed
      cases closed
  · refine absurd opening ((Avoids.read projectPart).bind (fun p => ?_) t s')
    split
    · exact Avoids.get.bind fun _ => closePanel_avoids.bind fun _ => (Avoids.modify _).bind fun _ =>
        (Avoids.change _ _).bind fun _ => Avoids.pure _
    · exact Avoids.pure _

theorem showHover_avoids (id : Handle) :
    Avoids .noProject (showHover id : SessionOperation τ Bool) := by
  intro s s' run
  cases (showHover_error run).2

/-- A timer opens the panel only for a buffer that is open. -/
theorem fire_avoids (task : SessionTask) : Avoids e (fire task : SessionOperation τ Unit) := by
  intro s s' run
  simp only [fire, bind_error, get_error, get_ok, exists_both_eq, false_or] at run
  cases task with
  | update id => exact Avoids.ite (updateBuffer_avoids id) (Avoids.pure ()) s s' run
  | hover id =>
    simp only [ite_error, discard_error, pure_error, and_false, or_false, Bool.and_eq_true] at run
    obtain ⟨⟨-, valid⟩, failed⟩ := run
    obtain ⟨b, isOpen⟩ := Table.contains_iff.1 valid
    rw [(showHover_error failed).1] at isOpen
    cases isOpen

theorem openBuffer_avoids (path : String) (text : Option String) :
    Avoids .noProject (openBuffer path text : SessionOperation τ Handle) := by
  refine Avoids.get.bind fun s => ?_
  cases text with
  | some text => exact (Avoids.pure _).bind fun _ => (Avoids.change _ _).bind fun _ => Avoids.pure _
  | none =>
    exact (avoids_attempt nofun).bind fun _ => (Avoids.change _ _).bind fun _ => Avoids.pure _

theorem changeBuffer_avoids (id : Handle) (f : Buffer → Buffer) :
    Avoids .noProject (changeBuffer id f : SessionOperation τ Unit) := by
  refine (Avoids.read hostPart).bind fun h => ?_
  cases h.updateBuffer? id f with
  | some host => exact Avoids.change _ _
  | none => exact Avoids.throw nofun

section Clock

variable [Instant τ]

theorem startTimer_avoids (context : Handle) (delayMs : Int) (task : SessionTask) :
    Avoids .noProject (startTimer context delayMs task : SessionOperation τ Unit) :=
  (Avoids.read _).bind fun _ => Avoids.ite (Avoids.change _ _)
    ((Avoids.change _ _).bind fun _ => Avoids.throw nofun)

theorem onTextChanged_avoids (id : Handle) :
    Avoids .noProject (onTextChanged id : SessionOperation τ Unit) :=
  Avoids.get.bind fun _ => Avoids.ite (startTimer_avoids _ _ _) (Avoids.pure ())

theorem onCursorHold_avoids (id : Handle) :
    Avoids .noProject (onCursorHold id : SessionOperation τ Unit) :=
  Avoids.get.bind fun _ => Avoids.ite (startTimer_avoids _ _ _) (Avoids.pure ())

/-- What is due can always be done. -/
theorem runDue_avoids : Avoids e (runDue : SessionOperation τ Nat) := by
  refine (Avoids.update _ _).bind fun batch => ?_
  induction batch with
  | nil => exact Avoids.pure 0
  | cons t rest ih =>
    exact (Avoids.read _).bind fun _ => Avoids.ite
      ((Avoids.change _ _).bind fun _ =>
        ((Avoids.change _ _).bind fun _ => fire_avoids _).bind fun _ =>
          ih.bind fun _ => Avoids.pure _)
      ih

end Clock

/-! ## Editing that fails -/

theorem attempt_error {ε : Type} {cause : ε → SessionFailure} {x : Except ε α}
    (run : (attempt cause x : SessionOperation τ α) s = .error e s') :
    ∃ c, x = .error c ∧ e = cause c ∧ s' = s := by
  cases x with
  | ok a => exact (pure_error.1 run).elim
  | error c =>
    obtain ⟨rfl, rfl⟩ := throw_error.1 run
    exact ⟨c, rfl, rfl, rfl⟩

theorem changeBuffer_error {f : Buffer → Buffer}
    (run : changeBuffer id f s = .error e s') : s' = s := by
  simp only [changeBuffer, bind_error, read_error, read_ok, exists_both_eq, false_or,
    hostPart] at run
  cases changed : s.host.updateBuffer? id f with
  | some host =>
    simp only [changed] at run
    exact (change_error.1 run).elim
  | none =>
    simp only [changed] at run
    exact (throw_error.1 run).2.symm

theorem openBuffer_error {path : String} {text : Option String}
    (run : openBuffer path text s = .error e s') : s' = s := by
  have sets : ∀ (both : Handle × Host) (t : Session τ), ¬ (do
      hostPart.change fun _ => both.2
      return both.1 : SessionOperation τ Handle) t = .error e s' := by
    intro both t setting
    obtain changing | ⟨_, _, -, answering⟩ := bind_error.1 setting
    · exact change_error.1 changing
    · exact pure_error.1 answering
  simp only [openBuffer, bind_error, get_error, get_ok, exists_both_eq, false_or] at run
  cases text with
  | some text => exact (sets _ _ run).elim
  | none =>
    obtain unread | ⟨both, t, -, later⟩ := bind_error.1 run
    · obtain ⟨c, -, -, rfl⟩ := attempt_error unread
      rfl
    · exact (sets both t later).elim

/-! ## Reading that fails -/

theorem loadLocale_error (found : s.project.root = some root)
    (usable : s.project.settings = some settings) (run : loadLocale locale s = .error e s') :
    ∃ c, e = .messages c := by
  simp only [loadLocale, bind_error, get_error, get_ok, exists_both_eq, false_or, found,
    usable] at run
  obtain unread | ⟨⟨messages, records⟩, t, -, later⟩ := run
  · obtain ⟨c, -, cause, -⟩ := attempt_error unread
    exact ⟨c, cause⟩
  · have quiet : Avoids e (records.forM fun r => emit (.logged r) : SessionOperation τ Unit) :=
      Avoids.forM (fun _ => Avoids.modify _) _
    obtain logging | ⟨_, t', -, setting⟩ := later
    · exact absurd logging (quiet _ _)
    · exact (change_error.1 setting).elim

theorem forM_loadLocale_error {locales : List String} (found : s.project.root = some root)
    (usable : s.project.settings = some settings)
    (run : locales.forM loadLocale s = .error e s') : ∃ c, e = .messages c := by
  induction locales generalizing s with
  | nil => exact (forM_nil_error.1 run).elim
  | cons locale rest ih =>
    obtain here | ⟨t, first, later⟩ := forM_cons_error.1 run
    · exact loadLocale_error found usable here
    · obtain ⟨_, _, _, _, -, -, -, outside⟩ := loadLocale_ok first
      refine ih ?_ ?_ later
      · rw [outside]
        exact found
      · rw [outside]
        exact usable

theorem loadAllLocales_error (run : loadAllLocales s = .error e s') : ∃ c, e = .messages c := by
  simp only [loadAllLocales, bind_error, read_error, read_ok, exists_both_eq, false_or,
    ite_error] at run
  obtain ⟨detected, unread⟩ | ⟨-, nothing⟩ := run
  · rw [ProjectState.isDetected, Bool.and_eq_true] at detected
    obtain ⟨root, found⟩ := Option.isSome_iff_exists.1 detected.1
    obtain ⟨settings, usable⟩ := Option.isSome_iff_exists.1 detected.2
    exact forM_loadLocale_error found usable unread
  · exact (pure_error.1 nothing).elim

theorem readSettings_error (run : readSettings root s = .error e s') :
    ∃ c, loadSettings s.workspace root s.options.marker = .error c ∧ e = .file c ∧ s' = s := by
  simp only [readSettings, bind_error, get_error, get_ok, exists_both_eq, false_or] at run
  obtain unread | ⟨loaded, t, -, later⟩ := run
  · exact attempt_error unread
  · cases loaded with
    | ok settings => exact (pure_error.1 later).elim
    | error record =>
      obtain logging | ⟨_, t', -, answering⟩ := bind_error.1 later
      · exact (modify_error.1 logging).elim
      · exact (pure_error.1 answering).elim

theorem watch_error {p : Path} {callback : SessionCallback}
    (run : watch p callback s = .error e s') :
    ∃ c, s.workspace.stamp? p = .error c ∧ e = .file c ∧ s' = s := by
  simp only [watch, WatchOwner.watch, bind_error, read_error, read_ok, exists_both_eq,
    false_or] at run
  cases known : s.watcher.find? p with
  | some x =>
    simp only [watchOwner, watcherPart, known] at run
    exact (change_error.1 run).elim
  | none =>
    simp only [watchOwner, watcherPart, known, bind_error, get_error, get_ok, exists_both_eq,
      false_or] at run
    obtain unread | ⟨stamp, t, -, beginning⟩ := run
    · exact attempt_error unread
    · exact (change_error.1 beginning).elim

theorem watchLocale_error (run : watchLocale root settings locale s = .error e s') :
    ∃ c, e = .file c ∧ s' = s := by
  simp only [watchLocale, bind_error, get_error, get_ok, exists_both_eq, false_or, ite_error,
    pure_error, and_false, or_false] at run
  obtain untested | ⟨there, t, tested, -, unwatched⟩ := run
  · obtain ⟨c, -, cause, same⟩ := attempt_error untested
    exact ⟨c, cause, same⟩
  · obtain ⟨c, -, cause, same⟩ := watch_error unwatched
    cases test : s.workspace.isFile (messagePath root settings.pathPattern locale) with
    | error c' => rw [test] at tested; exact (throw_ok.1 tested).elim
    | ok b =>
      rw [test] at tested
      obtain ⟨-, rfl⟩ := pure_ok.1 tested
      exact ⟨c, cause, same⟩

/-- What has been watched before a message file cannot be looked at stays watched. -/
theorem forM_watchLocale_error {locales : List String}
    (run : locales.forM (watchLocale root settings) s = .error e s') :
    (∃ c, e = .file c) ∧ Registers s s' := by
  induction locales generalizing s with
  | nil => exact (forM_nil_error.1 run).elim
  | cons locale rest ih =>
    obtain here | ⟨t, first, later⟩ := forM_cons_error.1 run
    · obtain ⟨c, cause, rfl⟩ := watchLocale_error here
      exact ⟨⟨c, cause⟩, .refl _⟩
    · obtain ⟨cause, registers⟩ := ih later
      exact ⟨cause, (watchLocale_registers first).1.trans registers⟩

/-- A file that can be read or is reported as missing has a stamp, or none. -/
theorem stamp?_of_loadSettings {ws : Workspace} {marker : String}
    {loaded : Except LogRecord ProjectSettings} (read : loadSettings ws root marker = .ok loaded) :
    ∃ stamp, ws.stamp? (root.join (Path.parse marker)) = .ok stamp := by
  rw [loadSettings] at read
  generalize root.join (Path.parse marker) = file at read
  cases entry : ws.node file with
  | error e =>
    have unread : ws.read file = .error e := by
      rw [Workspace.read, entry]
      rfl
    have unstamped : ws.stamp file = .error e := by
      rw [Workspace.stamp, entry]
      rfl
    rw [unread] at read
    simp only at read
    split at read
    · rename_i reported
      refine ⟨none, ?_⟩
      rw [Workspace.stamp?, unstamped]
      exact if_pos reported
    · cases read
  | ok entry' =>
    have stamped : ∃ stamp, ws.stamp file = .ok stamp := by
      rw [Workspace.stamp, entry]
      cases entry' <;> exact ⟨_, rfl⟩
    obtain ⟨stamp, stamped⟩ := stamped
    refine ⟨some stamp, ?_⟩
    rw [Workspace.stamp?, stamped]

theorem watchSettingsFile_avoids (found : s.project.root = some root) {stamp : Option FileStamp}
    (present : s.workspace.stamp? (s.settingsFile root) = .ok stamp) :
    watchSettingsFile s ≠ .error e s' := by
  intro run
  simp only [watchSettingsFile, bind_error, change_error, change_ok, exists_unit_eq, get_error,
    get_ok, exists_both_eq, false_or] at run
  have here : (watcherPart.put s (watcherPart.get s).clear).project.root = some root := found
  simp only [here] at run
  obtain ⟨c, absent, -⟩ := watch_error run
  have same := present.symm.trans absent
  cases same

end MessageLens.Session
