import MessageLens.Proofs.Project.Loading

/-!
# Where the pattern of a project comes from

The pattern of message files is looked for in several places, each of which may hold nothing that
can be used. The first place that offers a pattern decides, and inside of it the first value that
carries one.
-/

namespace MessageLens
set_option autoImplicit false

/-! ## The first of a list -/

section FirstGiven

variable {α β : Type}

/-- `b` is given by an element of the list, and nothing is given by the ones before it. -/
def FirstGiven (gives : α → β → Prop) (l : List α) (b : β) : Prop :=
  ∃ before a after, l = before ++ a :: after ∧ gives a b ∧
    ∀ earlier ∈ before, ∀ c, ¬ gives earlier c

theorem firstGiven_iff {gives : α → β → Prop} {f : α → Option β}
    (found : ∀ a b, gives a b ↔ f a = some b) {l : List α} {b : β} :
    FirstGiven gives l b ↔ l.findSome? f = some b := by
  simp only [FirstGiven, List.findSome?_eq_some_iff, found, Option.eq_none_iff_forall_ne_some]

theorem firstGiven_singleton {gives : α → β → Prop} {a : α} {b : β} :
    FirstGiven gives [a] b ↔ gives a b := by
  constructor
  · rintro ⟨before, first, after, split, given, -⟩
    cases before with
    | nil => exact (List.cons.inj split).1 ▸ given
    | cons _ before => exact (List.append_ne_nil_of_right_ne_nil before
        (List.cons_ne_nil _ _) (List.cons.inj split).2.symm).elim
  · exact fun given => ⟨[], a, [], rfl, given, fun _ mem => absurd mem List.not_mem_nil⟩

end FirstGiven

/-! ## Places -/

/-- The value is this text, and the text is not empty. -/
def IsPattern (value : Json) (pattern : String) : Prop := value = .str pattern ∧ pattern ≠ ""

/-- The value carries a pattern: it is one, or it is a list and this is the first in it. -/
def Carries (value : Json) (pattern : String) : Prop :=
  IsPattern value pattern ∨ ∃ values, value = .arr values ∧ FirstGiven IsPattern values pattern

/-- The value is an object that carries a pattern under the name for one. -/
def ObjectCarries (value : Json) (pattern : String) : Prop :=
  ∃ members own, value = .obj members ∧ Json.member? members "pathPattern" = some own ∧
    Carries own pattern

/-- The member is there for a plugin and is an object that carries a pattern. -/
def PluginMemberCarries (member : String × Json) (pattern : String) : Prop :=
  "plugin.".toList <+: member.1.toList ∧ ObjectCarries member.2 pattern

/-- The layout is this pattern, and the message file of the locale under it exists. -/
def IsInUse (w : Workspace) (root : Path) (locale layout pattern : String) : Prop :=
  layout = pattern ∧
    ∃ content modified, w.node (messagePath root layout locale) = .ok (.file content modified)

/-- The places of patterns. -/
inductive PatternPlace where
  | plugins
  | pluginMembers
  | settings
  | layouts
  | standard

/-- The places in a settings file, in the order in which they are looked at. -/
def PatternPlace.inFile : List PatternPlace := [.plugins, .pluginMembers, .settings]

/-- All places in order. -/
def PatternPlace.inOrder : List PatternPlace := inFile ++ [.layouts, .standard]

/-- What a place offers. -/
def PatternPlace.Offers (w : Workspace) (root : Path) (locale : String)
    (members : List (String × Json)) : PatternPlace → String → Prop
  | .plugins, pattern => ∃ plugins, Json.member? members "plugin" = some (.arr plugins) ∧
      FirstGiven ObjectCarries plugins pattern
  | .pluginMembers, pattern => FirstGiven PluginMemberCarries members pattern
  | .settings, pattern => ObjectCarries (.obj members) pattern
  | .layouts, pattern => FirstGiven (IsInUse w root locale) commonPathPatterns pattern
  | .standard, pattern => pattern = defaultPathPattern

/-! ## What is found in each place -/

variable {w : Workspace} {root : Path} {marker locale pattern : String} {value : Json}
  {members : List (String × Json)}

theorem firstText?_eq_some {values : List Json} :
    firstText? values = some pattern ↔ FirstGiven IsPattern values pattern := by
  refine (firstGiven_iff fun value pattern => ?_).symm
  cases value with
  | str s => grind [IsPattern]
  | _ => simp [IsPattern]

theorem carriedPattern?_eq_some : carriedPattern? value = some pattern ↔ Carries value pattern := by
  cases value with
  | str s => simp [carriedPattern?, firstText?_eq_some, firstGiven_singleton, Carries]
  | arr values => simp [carriedPattern?, firstText?_eq_some, Carries, IsPattern]
  | _ => simp [carriedPattern?, Carries, IsPattern]

theorem ownPattern?_eq_some : ownPattern? value = some pattern ↔ ObjectCarries value pattern := by
  cases value with
  | obj members =>
    simp [ownPattern?, Option.bind_eq_some_iff, carriedPattern?_eq_some, ObjectCarries]
  | _ => simp [ownPattern?, ObjectCarries]

theorem pluginPattern?_eq_some : pluginPattern? members = some pattern ↔
    PatternPlace.plugins.Offers w root locale members pattern := by
  rw [pluginPattern?, PatternPlace.Offers]
  cases Json.member? members "plugin" with
  | none => simp
  | some value =>
    cases value with
    | arr plugins =>
      have first : FirstGiven ObjectCarries plugins pattern ↔
          plugins.findSome? ownPattern? = some pattern :=
        firstGiven_iff (f := ownPattern?) fun _ _ => ownPattern?_eq_some.symm
      simpa using first.symm
    | _ => simp

theorem pluginMemberPattern?_eq_some : pluginMemberPattern? members = some pattern ↔
    PatternPlace.pluginMembers.Offers w root locale members pattern := by
  refine (firstGiven_iff fun member pattern => ?_).symm
  rw [PluginMemberCarries, ← List.isPrefixOf_iff_prefix]
  by_cases named : "plugin.".toList.isPrefixOf member.1.toList = true
  · rw [if_pos named, and_iff_right named, ownPattern?_eq_some]
  · rw [if_neg named]
    exact iff_of_false (fun carries => named carries.1) (fun found => nomatch found)

/-- The layout that is found, if no path on the way to it is too long. -/
def layoutInUse? (w : Workspace) (root : Path) (locale : String) : List String → Option String :=
  List.findSome? fun layout =>
    match w.node (messagePath root layout locale) with
    | .ok (.file _ _) => some layout
    | _ => none

theorem layoutInUse?_eq_some {layouts : List String} :
    layoutInUse? w root locale layouts = some pattern ↔
      FirstGiven (IsInUse w root locale) layouts pattern := by
  refine (firstGiven_iff fun layout pattern => ?_).symm
  rw [IsInUse]
  cases w.node (messagePath root layout locale) with
  | error e => simp
  | ok node => cases node <;> simp

theorem probePatterns_eq {layouts : List String} (sound : ¬ ProbeBreaks w root locale layouts) :
    probePatterns w root locale layouts = .ok (layoutInUse? w root locale layouts) := by
  induction layouts with
  | nil => rfl
  | cons layout rest ih =>
    rw [probeBreaks_cons, not_or, not_and, ← isFile_fails] at sound
    rw [probePatterns, layoutInUse?, List.findSome?_cons]
    rw [Workspace.isFile, Workspace.test] at sound ⊢
    cases found : w.node (messagePath root layout locale) with
    | ok node =>
      rw [found] at sound
      cases node with
      | file content modified => rfl
      | directory _ | link _ => exact ih (sound.2 rfl)
    | error e =>
      rw [found] at sound
      by_cases absent : Workspace.isAbsence e = true
      · simp only [if_pos absent] at sound ⊢
        exact ih (sound.2 trivial)
      · simp only [if_neg absent] at sound
        exact (sound.1 fails_error).elim

/-- What is found in a place. -/
def PatternPlace.offered? (w : Workspace) (root : Path) (locale : String)
    (members : List (String × Json)) : PatternPlace → Option String
  | .plugins => pluginPattern? members
  | .pluginMembers => pluginMemberPattern? members
  | .settings => ownPattern? (.obj members)
  | .layouts => layoutInUse? w root locale commonPathPatterns
  | .standard => some defaultPathPattern

theorem PatternPlace.offers_iff (place : PatternPlace) (pattern : String) :
    place.Offers w root locale members pattern ↔
      place.offered? w root locale members = some pattern := by
  cases place with
  | plugins => exact pluginPattern?_eq_some.symm
  | pluginMembers => exact pluginMemberPattern?_eq_some.symm
  | settings => exact ownPattern?_eq_some.symm
  | layouts => exact layoutInUse?_eq_some.symm
  | standard => exact eq_comm.trans (Option.some.injEq _ _).to_iff.symm

theorem configuredPattern?_eq_none : configuredPattern? members = none ↔
    ∀ place ∈ PatternPlace.inFile, ∀ pattern, ¬ place.Offers w root locale members pattern := by
  simp [PatternPlace.inFile, PatternPlace.offers_iff, PatternPlace.offered?, configuredPattern?,
    ← Option.eq_none_iff_forall_ne_some]

/-- The pattern of a project is offered by the first place that offers one. -/
theorem choosePattern_first (sound : configuredPattern? members = none →
      ¬ ProbeBreaks w root (probeLocale members) commonPathPatterns) :
    ∃ chosen, choosePattern w root members = .ok chosen ∧ ∀ pattern,
      FirstGiven (PatternPlace.Offers w root (probeLocale members) members) PatternPlace.inOrder
        pattern ↔ chosen.getD defaultPathPattern = pattern := by
  simp only [firstGiven_iff PatternPlace.offers_iff, PatternPlace.inOrder, PatternPlace.inFile,
    List.cons_append, List.nil_append, List.findSome?_cons, PatternPlace.offered?]
  rw [choosePattern]
  rw [configuredPattern?] at sound ⊢
  revert sound
  cases pluginPattern? members with
  | some pattern => exact fun _ => ⟨_, rfl, fun _ => by simp⟩
  | none =>
    cases pluginMemberPattern? members with
    | some pattern => exact fun _ => ⟨_, rfl, fun _ => by simp⟩
    | none =>
      cases ownPattern? (.obj members) with
      | some pattern => exact fun _ => ⟨_, rfl, fun _ => by simp⟩
      | none =>
        intro sound
        refine ⟨_, probePatterns_eq (sound rfl), fun pattern => ?_⟩
        cases layoutInUse? w root (probeLocale members) commonPathPatterns <;> simp

/-! ## Settings -/

theorem localeList?_eq_some {locales : List String} :
    localeList? value = some locales ↔ value = .arr (locales.map .str) := by
  cases value with
  | arr values =>
    rw [localeList?, Json.arr.injEq]
    induction values generalizing locales with
    | nil => cases locales <;> simp
    | cons value values ih =>
      rw [List.mapM_cons]
      cases value with
      | str s => cases locales <;> simp [Option.bind_eq_some_iff, ih, and_comm]
      | _ => cases locales <;> simp
  | _ => simp [localeList?]

theorem given?_eq_some {name : String} (present : value.isNull = false) :
    Json.given? members name = some value ↔ Json.member? members name = some value := by
  simp [Json.given?, Option.filter_eq_some_iff, present]

theorem settingsOfObject_eq_ok {file : Path} {chosen : Option String} {settings : ProjectSettings} :
    settingsOfObject file members chosen = .ok settings ↔
      Json.member? members "baseLocale" = some (.str settings.baseLocale) ∧
      Json.member? members "locales" = some (.arr (settings.locales.map .str)) ∧
      chosen.getD defaultPathPattern = settings.pathPattern := by
  rw [← given?_eq_some rfl, ← given?_eq_some rfl, settingsOfObject]
  cases Json.given? members "baseLocale" with
  | none => simp
  | some base =>
    cases Json.given? members "locales" with
    | none => simp
    | some locales =>
      rw [Option.some.injEq, Option.some.injEq, ← localeList?_eq_some]
      dsimp only
      cases base with
      | str base =>
        cases localeList? locales with
        | none => simp
        | some locales =>
          obtain ⟨base', locales', pattern⟩ := settings
          simp
      | _ => simp

/-- Whether an object has settings depends on the base locale and the locales in it. The pattern of
the settings is the first that is available, as long as no path is too long that is probed for
it. -/
theorem pattern_first_available
    (holds : HoldsObject w (root.join (Path.parse marker)) members)
    (probed : (∀ place ∈ PatternPlace.inFile, ∀ pattern,
        ¬ place.Offers w root (probeLocale members) members pattern) →
      ¬ ProbeBreaks w root (probeLocale members) commonPathPatterns) :
    (∃ outcome, loadSettings w root marker = .ok outcome) ∧
    ((∃ settings, loadSettings w root marker = .ok (.ok settings)) ↔
      (∃ base, Json.member? members "baseLocale" = some (.str base)) ∧
      ∃ locales : List String, Json.member? members "locales" = some (.arr (locales.map .str))) ∧
    ∀ settings, loadSettings w root marker = .ok (.ok settings) ↔
      Json.member? members "baseLocale" = some (.str settings.baseLocale) ∧
      Json.member? members "locales" = some (.arr (settings.locales.map .str)) ∧
      FirstGiven (PatternPlace.Offers w root settings.baseLocale members) PatternPlace.inOrder
        settings.pathPattern := by
  obtain ⟨content, read, parsed⟩ := holds
  obtain ⟨chosen, choice, first⟩ := choosePattern_first fun none =>
    probed (configuredPattern?_eq_none.1 none)
  have loaded : loadSettings w root marker =
      .ok (settingsOfObject (root.join (Path.parse marker)) members chosen) := by
    rw [loadSettings, read]
    simp only [settingsOfContent, parsed, choice, Except.map]
  have settled (settings : ProjectSettings) :
      loadSettings w root marker = .ok (.ok settings) ↔
        Json.member? members "baseLocale" = some (.str settings.baseLocale) ∧
        Json.member? members "locales" = some (.arr (settings.locales.map .str)) ∧
        FirstGiven (PatternPlace.Offers w root settings.baseLocale members) PatternPlace.inOrder
          settings.pathPattern := by
    rw [loaded, Except.ok.injEq, settingsOfObject_eq_ok]
    refine and_congr_right fun based => and_congr_right fun _ => ?_
    have locale : probeLocale members = settings.baseLocale := by rw [probeLocale, based]
    rw [← locale, first]
  refine ⟨⟨_, loaded⟩, ⟨?_, ?_⟩, settled⟩
  · rintro ⟨settings, usable⟩
    obtain ⟨based, listed, -⟩ := (settled settings).1 usable
    exact ⟨⟨_, based⟩, _, listed⟩
  · rintro ⟨⟨base, based⟩, locales, listed⟩
    refine ⟨⟨base, locales, chosen.getD defaultPathPattern⟩, ?_⟩
    rw [loaded, Except.ok.injEq, settingsOfObject_eq_ok]
    exact ⟨based, listed, rfl⟩

/-- Settings in which no place holds a pattern that can be used. -/
def unusablePatterns : List (String × Json) :=
  [("plugin", .arr [.int 3, .obj [("pathPattern", .arr [.str ""])]]),
    ("locales", .arr [.str "en"]), ("plugin.a", .obj [("pathPattern", .str "")]),
    ("pathPattern", .arr [.obj []]), ("baseLocale", .str "en")]

/-- The text of these settings. -/
def unusablePatternsContent : Bytes :=
  ("\x7b\"plugin\":[3,\x7b\"pathPattern\":[\"\"]\x7d],\"locales\":[\"en\"]," ++
    "\"plugin.a\":\x7b\"pathPattern\":\"\"\x7d,\"pathPattern\":[\x7b\x7d],\"baseLocale\":\"en\"\x7d").toUTF8.toList

/-- Whether a document consists of these settings. -/
def holdsUnusablePatterns : Json → Bool
  | .obj [("plugin", .arr [.int 3, .obj [("pathPattern", .arr [.str ""])]]),
      ("locales", .arr [.str "en"]), ("plugin.a", .obj [("pathPattern", .str "")]),
      ("pathPattern", .arr [.obj []]), ("baseLocale", .str "en")] => true
  | _ => false

theorem unusablePatternsContent_parsed :
    Json.ofBytes? unusablePatternsContent = some (.obj unusablePatterns) := by
  have parsed : (Json.ofBytes? unusablePatternsContent).any holdsUnusablePatterns = true := by
    decide +kernel
  obtain ⟨document, found, holds⟩ := (Option.any_eq_true _ _).1 parsed
  rw [found]
  unfold holdsUnusablePatterns at holds
  split at holds
  · rfl
  · cases holds

/-- A project with these settings and with messages in the second of the layouts. What stands in the
place of the first is no file. -/
def secondLayoutDisk : Disk :=
  ⟨[(["project.inlang"], .directory 0),
    (["project.inlang", "settings.json"], .file unusablePatternsContent 0),
    (["messages"], .directory 0), (["messages", "en.json"], .directory 0),
    (["src"], .directory 0), (["src", "messages"], .directory 0),
    (["src", "messages", "en.json"], .file [] 0)]⟩

theorem pattern_first_available_secondLayout :
    let w : Workspace := { disk := secondLayoutDisk }
    HoldsObject w ((⟨.root, []⟩ : Path).join (Path.parse defaultMarker)) unusablePatterns ∧
    (¬ ProbeBreaks w ⟨.root, []⟩ (probeLocale unusablePatterns) commonPathPatterns) ∧
    loadSettings w ⟨.root, []⟩ =
      .ok (.ok ⟨"en", ["en"], "./src/messages/\x7blanguageTag\x7d.json"⟩) := by
  intro w
  have holds : HoldsObject w ((⟨.root, []⟩ : Path).join (Path.parse defaultMarker))
      unusablePatterns :=
    ⟨unusablePatternsContent, by decide +kernel, unusablePatternsContent_parsed⟩
  have probed : ¬ ProbeBreaks w ⟨.root, []⟩ (probeLocale unusablePatterns) commonPathPatterns := by
    rw [← probePatterns_fails]
    have answered : probePatterns w ⟨.root, []⟩ "en" commonPathPatterns =
        .ok (some "./src/messages/\x7blanguageTag\x7d.json") := by decide +kernel
    rintro ⟨e, failed⟩
    cases answered.symm.trans failed
  refine ⟨holds, probed, ?_⟩
  refine ((pattern_first_available holds fun _ => probed).2.2 _).2 ⟨rfl, rfl, ?_⟩
  exact (firstGiven_iff PatternPlace.offers_iff).2 (by decide +kernel)

end MessageLens
