import MessageLens.Project.Settings

/-!
# What a settings file declares

The base locale and the locales of a project are a matter of the content of its settings file alone;
the rest of the disk only has a say in the pattern of the message files. Of a locale that is
displayed already settings ask no more than that it is one of theirs.
-/

namespace MessageLens
set_option autoImplicit false

/-- The base locale and the locales. -/
def ProjectSettings.declaration (settings : ProjectSettings) : String × List String :=
  (settings.baseLocale, settings.locales)

/-- The base locale and the locales that the content of a settings file declares, if it can be
used. -/
def declaredIn (content : Bytes) : Option (String × List String) :=
  match Json.ofBytes? content with
  | some (.obj settings) =>
    match Json.given? settings "baseLocale", Json.given? settings "locales" with
    | some (.str base), some locales => (localeList? locales).map (base, ·)
    | _, _ => none
  | _ => none

/-- The base locale and the locales that a settings file declares, if there is one that can be
used. -/
def declared (w : Workspace) (file : Path) : Option (String × List String) :=
  (w.read file).toOption.bind declaredIn

theorem settingsOfObject_declaration (file : Path) (settings : List (String × Json))
    (pattern : Option String) :
    (settingsOfObject file settings pattern).toOption.map ProjectSettings.declaration =
      match Json.given? settings "baseLocale", Json.given? settings "locales" with
      | some (.str base), some locales => (localeList? locales).map (base, ·)
      | _, _ => none := by
  rw [settingsOfObject]
  cases Json.given? settings "baseLocale" with
  | none => rfl
  | some base =>
    cases Json.given? settings "locales" with
    | none => cases base <;> rfl
    | some locales =>
      simp only
      cases base with
      | str base =>
        show _ = (localeList? locales).map (base, ·)
        cases localeList? locales <;> rfl
      | _ => cases localeList? locales <;> rfl

theorem loadSettings_declaration {w : Workspace} {root : Path} {marker : String}
    {r : Except LogRecord ProjectSettings} (loaded : loadSettings w root marker = .ok r) :
    r.toOption.map ProjectSettings.declaration = declared w (root.join (Path.parse marker)) := by
  rw [loadSettings] at loaded
  rw [declared]
  cases read : w.read (root.join (Path.parse marker)) with
  | error e =>
    rw [read] at loaded
    simp only at loaded
    split at loaded
    · cases loaded
      rfl
    · cases loaded
  | ok content =>
    rw [read] at loaded
    show _ = declaredIn content
    simp only [settingsOfContent] at loaded
    rw [declaredIn]
    cases document : Json.ofBytes? content with
    | none => rw [document] at loaded; cases loaded; rfl
    | some value =>
      rw [document] at loaded
      cases value with
      | obj settings =>
        simp only at loaded
        cases chosen : choosePattern w root settings with
        | error e => rw [chosen] at loaded; cases loaded
        | ok pattern =>
          rw [chosen] at loaded
          cases loaded
          exact settingsOfObject_declaration ..
      | _ => cases loaded; rfl

/-- The locale that settings display after the locale that was displayed before them. -/
def ProjectSettings.displayed (settings : ProjectSettings) : Option String → String
  | some locale => if locale ∈ settings.locales then locale else settings.baseLocale
  | none => settings.baseLocale

theorem ProjectSettings.some_displayed (settings : ProjectSettings) (before : Option String) :
    (match before with
      | some locale => if locale ∈ settings.locales then some locale else some settings.baseLocale
      | none => some settings.baseLocale) = some (settings.displayed before) := by
  cases before with
  | none => rfl
  | some locale => by_cases listed : locale ∈ settings.locales <;> simp [displayed, listed]

/-- Settings do not change their mind. -/
theorem ProjectSettings.displayed_displayed (settings : ProjectSettings) (before : Option String) :
    settings.displayed (some (settings.displayed before)) = settings.displayed before := by
  have base : settings.displayed (some settings.baseLocale) = settings.baseLocale := by
    rw [displayed]
    exact ite_self _
  cases before with
  | none => exact base
  | some locale =>
    by_cases listed : locale ∈ settings.locales
    · simp [displayed, listed]
    · rw [displayed.eq_1 settings locale, if_neg listed]
      exact base

/-- The locale that is displayed after settings have been read or have turned out to be of no use. -/
def shownAfter (settings : Option ProjectSettings) (before : Option String) : Option String :=
  match settings with
  | some settings => some (settings.displayed before)
  | none => before

theorem shownAfter_shownAfter (settings : Option ProjectSettings) (before : Option String) :
    shownAfter settings (shownAfter settings before) = shownAfter settings before := by
  cases settings with
  | none => rfl
  | some settings => exact congrArg some (settings.displayed_displayed before)

end MessageLens
