import MessageLens.Project.Settings
import MessageLens.Proofs.Message.Loading

/-!
# When settings load

A settings file that cannot be read or used is reported as such. What it holds is put to use before
it is checked, though: where no pattern is given, the base locale becomes part of the paths at which
message files are looked for. A path that is too long for the disk is not foreseen there, and with
it loading fails.
-/

namespace MessageLens
set_option autoImplicit false

variable {w : Workspace} {root : Path} {marker locale : String}

/-- Some of these layouts has a message file whose path is too long, and no earlier one has a file.
-/
def ProbeBreaks (w : Workspace) (root : Path) (locale : String) (patterns : List String) : Prop :=
  ∃ before pattern after, patterns = before ++ pattern :: after ∧
    (∀ earlier ∈ before, w.isFile (messagePath root earlier locale) = .ok false) ∧
    w.locate (messagePath root pattern locale) = .error .nameTooLong

theorem isFile_fails {p : Path} : Fails (w.isFile p) ↔ w.locate p = .error .nameTooLong := by
  constructor
  · rintro ⟨e, failed⟩
    exact (test_error.1 failed).1
  · exact fun tooLong => ⟨_, test_error.2 ⟨tooLong, rfl⟩⟩

theorem probeBreaks_cons {pattern : String} {rest : List String} :
    ProbeBreaks w root locale (pattern :: rest) ↔
      w.locate (messagePath root pattern locale) = .error .nameTooLong ∨
      w.isFile (messagePath root pattern locale) = .ok false ∧ ProbeBreaks w root locale rest := by
  constructor
  · rintro ⟨before, broken, after, split, none, tooLong⟩
    cases before with
    | nil =>
      cases split
      exact .inl tooLong
    | cons first before =>
      cases split
      exact .inr ⟨none _ List.mem_cons_self, before, broken, after, rfl,
        fun earlier mem => none earlier (List.mem_cons_of_mem _ mem), tooLong⟩
  · rintro (tooLong | ⟨first, before, broken, after, rfl, none, tooLong⟩)
    · exact ⟨[], pattern, rest, rfl, fun _ mem => absurd mem List.not_mem_nil, tooLong⟩
    · exact ⟨pattern :: before, broken, after, rfl, List.forall_mem_cons.2 ⟨first, none⟩, tooLong⟩

/-- Layouts are tried in turn, and the search fails at the first one whose path is too long. -/
theorem probePatterns_fails {patterns : List String} :
    Fails (probePatterns w root locale patterns) ↔ ProbeBreaks w root locale patterns := by
  induction patterns with
  | nil =>
    refine iff_of_false not_fails_ok ?_
    rintro ⟨before, pattern, after, split, -⟩
    exact List.append_ne_nil_of_right_ne_nil before (List.cons_ne_nil _ _) split.symm
  | cons pattern rest ih =>
    rw [probePatterns, fails_bind, isFile_fails, probeBreaks_cons]
    refine or_congr Iff.rfl ⟨?_, ?_⟩
    · rintro ⟨answer, tested, failed⟩
      cases answer with
      | true => exact (not_fails_ok failed).elim
      | false => exact ⟨tested, ih.1 failed⟩
    · rintro ⟨tested, breaks⟩
      exact ⟨false, tested, ih.2 breaks⟩

theorem choosePattern_fails {members : List (String × Json)} :
    Fails (choosePattern w root members) ↔ configuredPattern? members = none ∧
      ProbeBreaks w root (probeLocale members) commonPathPatterns := by
  rw [choosePattern]
  cases configuredPattern? members with
  | some pattern => simp
  | none => simp [probePatterns_fails]

/-- The content of a settings file fails to load just if it is an object without a pattern whose
base locale does not fit into a path. -/
theorem settingsOfContent_fails {file : Path} {content : Bytes} :
    Fails (settingsOfContent w root file content) ↔ ∃ members,
      Json.ofBytes? content = some (.obj members) ∧ configuredPattern? members = none ∧
        ProbeBreaks w root (probeLocale members) commonPathPatterns := by
  rw [settingsOfContent]
  cases parsed : Json.ofBytes? content with
  | none => simp
  | some document =>
    cases document with
    | obj members => simp [choosePattern_fails]
    | _ => simp

theorem loadSettings_fails : Fails (loadSettings w root marker) ↔
    ¬ IsAccepted (root.join (Path.parse marker)) ∨
    ∃ members, HoldsObject w (root.join (Path.parse marker)) members ∧
      configuredPattern? members = none ∧
        ProbeBreaks w root (probeLocale members) commonPathPatterns := by
  rw [loadSettings, ← read_embeddedNul (w := w)]
  simp only [HoldsObject]
  cases read : w.read (root.join (Path.parse marker)) with
  | ok content => simp [settingsOfContent_fails]
  | error e =>
    have reported : e.isReported = true ↔ e ≠ .embeddedNul := by cases e <;> decide
    by_cases nul : e = .embeddedNul
    · simp [nul, FileError.isReported]
    · simp [reported.2 nul, nul]

theorem settingsOfObject_warns {file : Path} {members : List (String × Json)}
    {pattern : Option String} {record : LogRecord}
    (unusable : settingsOfObject file members pattern = .error record) :
    record.level = .warning := by
  rw [settingsOfObject] at unusable
  split at unusable
  · split at unusable
    · cases unusable
    · cases unusable
      rfl
  · cases unusable
    rfl

/-- Where there are no settings a record says so, as a warning or an error. -/
theorem loadSettings_warns {record : LogRecord}
    (loaded : loadSettings w root marker = .ok (.error record)) :
    record.level = .warning ∨ record.level = .error := by
  rw [loadSettings] at loaded
  cases read : w.read (root.join (Path.parse marker)) with
  | error e =>
    rw [read] at loaded
    dsimp only at loaded
    split at loaded
    · cases loaded
      exact .inl rfl
    · cases loaded
  | ok content =>
    rw [read] at loaded
    dsimp only [settingsOfContent] at loaded
    split at loaded
    · cases loaded
      exact .inr rfl
    next members _ =>
      cases chosen : choosePattern w root members with
      | error e =>
        rw [chosen] at loaded
        cases loaded
      | ok pattern =>
        rw [chosen] at loaded
        exact .inl (settingsOfObject_warns (Except.ok.inj loaded))
    · cases loaded
      exact .inr rfl

/-- A search that breaks comes to a path over the limit of the system, or to a name over that of the
disk. -/
theorem ProbeBreaks.tooLong {patterns : List String}
    (breaks : ProbeBreaks w root locale patterns) : ∃ pattern ∈ patterns,
      Disk.maxPathBytes < (messagePath root pattern locale).text.utf8ByteSize ∨
        w.disk.HasLongName (messagePath root pattern locale).parts := by
  obtain ⟨before, pattern, after, rfl, -, tooLong⟩ := breaks
  exact ⟨pattern, List.mem_append_right _ List.mem_cons_self, locate_tooLong tooLong⟩

/-- Loading fails just if the path of the file is not accepted, or if the file holds an object
without a pattern and a path to look for messages at, which has the base locale in it, is too long.
In all other cases there are settings, or a record of why there are none. -/
theorem loadSettings_fails_iff_tooLong (w : Workspace) (root : Path) (marker : String) :
    (Fails (loadSettings w root marker) ↔
      ¬ IsAccepted (root.join (Path.parse marker)) ∨
      ∃ members, HoldsObject w (root.join (Path.parse marker)) members ∧
        configuredPattern? members = none ∧
          ProbeBreaks w root (probeLocale members) commonPathPatterns) ∧
    (∀ locale, ProbeBreaks w root locale commonPathPatterns → ∃ pattern ∈ commonPathPatterns,
      Disk.maxPathBytes < (messagePath root pattern locale).text.utf8ByteSize ∨
        w.disk.HasLongName (messagePath root pattern locale).parts) ∧
    (¬ Fails (loadSettings w root marker) →
      (∃ settings, loadSettings w root marker = .ok (.ok settings)) ∨
      ∃ record, loadSettings w root marker = .ok (.error record) ∧
        LogLevel.warning.severity ≤ record.level.severity) := by
  refine ⟨loadSettings_fails, fun locale breaks => breaks.tooLong, fun sound => ?_⟩
  cases loaded : loadSettings w root marker with
  | error e => exact absurd ⟨e, loaded⟩ sound
  | ok outcome =>
    cases outcome with
    | ok settings => exact .inl ⟨settings, rfl⟩
    | error record =>
      refine .inr ⟨record, rfl, ?_⟩
      rcases loadSettings_warns loaded with level | level
      · rw [level]
      · rw [level]
        decide

/-- A locale whose message files have names of 256 bytes. -/
def longLocale : List Char := List.replicate 251 'a'

/-- Settings that give this locale and nothing else. -/
def longLocaleContent : Bytes :=
  "\x7b\"baseLocale\": \"".toUTF8.toList ++ List.replicate 251 97 ++ "\"\x7d".toUTF8.toList

/-- A project with these settings and a directory for its messages. -/
def longLocaleDisk : Disk :=
  ⟨[(["project.inlang"], .directory 0),
    (["project.inlang", "settings.json"], .file longLocaleContent 0), (["messages"], .directory 0)]⟩

theorem messagePath_longLocale :
    messagePath ⟨.root, []⟩ defaultPathPattern (String.ofList longLocale) =
      ⟨.root, ["messages", String.ofList (longLocale ++ ".json".toList)]⟩ := by
  rw [messagePath, String.toList_ofList, Path.parse, String.toList_ofList]
  decide +kernel

theorem locate_longLocale : ({ disk := longLocaleDisk } : Workspace).locate
    (messagePath ⟨.root, []⟩ defaultPathPattern (String.ofList longLocale)) =
      .error .nameTooLong := by
  rw [messagePath_longLocale]
  apply locate_of_longName
  · unfold IsAccepted
    simp only [List.forall_mem_cons, String.toList_ofList]
    decide +kernel
  · have long : IsLongName (String.ofList (longLocale ++ ".json".toList)) := by decide +kernel
    have step (name : String) : longLocaleDisk.descend true [] ["messages", name] =
        longLocaleDisk.descend true ["messages"] [name] := rfl
    exact (step _).trans (descend_longName long [])

/-- Whether a document is an object with this locale and nothing else. -/
def holdsLongLocale : Json → Bool
  | .obj [("baseLocale", .str locale)] => locale == String.ofList longLocale
  | _ => false

theorem eq_of_holdsLongLocale {document : Json} (holds : holdsLongLocale document = true) :
    document = .obj [("baseLocale", .str (String.ofList longLocale))] := by
  unfold holdsLongLocale at holds
  split at holds
  · rw [beq_iff_eq.1 holds]
  · cases holds

/-- The settings lack locales, but loading fails before that is reported. -/
theorem longLocale_fails : Fails (loadSettings { disk := longLocaleDisk } ⟨.root, []⟩) := by
  have read : ({ disk := longLocaleDisk } : Workspace).read
      ((⟨.root, []⟩ : Path).join (Path.parse defaultMarker)) = .ok longLocaleContent := by
    decide +kernel
  have parsed : (Json.ofBytes? longLocaleContent).any holdsLongLocale = true := by
    decide +kernel
  obtain ⟨document, found, holds⟩ := (Option.any_eq_true _ _).1 parsed
  obtain rfl := eq_of_holdsLongLocale holds
  have breaks : ProbeBreaks { disk := longLocaleDisk } ⟨.root, []⟩ (String.ofList longLocale)
      commonPathPatterns :=
    ⟨[], defaultPathPattern, _, rfl, fun _ mem => absurd mem List.not_mem_nil, locate_longLocale⟩
  exact loadSettings_fails.2 (.inr ⟨_, ⟨_, read, found⟩, rfl, breaks⟩)

end MessageLens
