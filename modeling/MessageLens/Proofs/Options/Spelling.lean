import MessageLens.Proofs.Options.Accepted

/-!
# The two names of an option

Where no two members give one option, it does not matter under which of its names an option is
given: with any choice of members put under their other names, at the top and inside of the groups,
a document has the same options, or the same faults at the paths that are put likewise.
-/

namespace MessageLens
set_option autoImplicit false

variable {α β : Type} {members : List (String × OptionValue)} {vocabulary : List OptionName}
  {n : OptionName} {key : String} {dflt : α} {reader : OptionValue → Checked α}
  {picked : String → Bool} {inner : String → OptionValue → OptionValue}
  {innerPath : String → List String → List String}

/-! ## Putting members under their other names -/

/-- The other name of the option that has a name; a name of no option stays. -/
def otherName (vocabulary : List OptionName) (key : String) : String :=
  match vocabulary.find? fun n => decide (n.Covers key) with
  | some n => if key = n.preferred then n.plain else n.preferred
  | none => key

/-- The name of a member after those that are picked have been put under their other names. -/
def renamedKey (vocabulary : List OptionName) (picked : String → Bool) (key : String) : String :=
  if picked key then otherName vocabulary key else key

/-- The members of a group after that; `inner` is what is done to the values. -/
def renamedMembers (vocabulary : List OptionName) (picked : String → Bool)
    (inner : String → OptionValue → OptionValue) (members : List (String × OptionValue)) :
    List (String × OptionValue) :=
  members.map fun m => (renamedKey vocabulary picked m.1, inner m.1 m.2)

/-- The path of a member after that; `innerPath` is what is done to the paths of the values. -/
def renamedPath (vocabulary : List OptionName) (picked : String → Bool)
    (innerPath : String → List String → List String) : List String → List String
  | [] => []
  | key :: rest => renamedKey vocabulary picked key :: innerPath key rest

/-- The options of the group that a member at the top gives; all other members have none. -/
def groupNames (key : String) : List OptionName :=
  if OptionName.Covers ⟨"virtualText", "virtual_text"⟩ key then VirtualTextOptions.names
  else if OptionName.Covers (.single "hover") key then HoverOptions.names
  else []

/-- A value with members in it put under their other names, if it is a group. -/
def OptionValue.renamed (vocabulary : List OptionName) (picked : String → Bool) :
    OptionValue → OptionValue
  | table members => table (renamedMembers vocabulary picked (fun _ => id) members)
  | v => v

/-- The members of a document after those that are picked, by their paths, have been put under their
other names, at the top and in the groups. -/
def respelledMembers (picked : List String → Bool) :
    List (String × OptionValue) → List (String × OptionValue) :=
  renamedMembers PreviewOptions.names (fun key => picked [key]) fun key =>
    OptionValue.renamed (groupNames key) fun name => picked [key, name]

/-- The document after that. -/
def OptionValue.respelled (picked : List String → Bool) : OptionValue → OptionValue
  | table members => table (respelledMembers picked members)
  | v => v

/-- The path of a member of a document after that. -/
def respelledPath (picked : List String → Bool) : List String → List String :=
  renamedPath PreviewOptions.names (fun key => picked [key]) fun key =>
    renamedPath (groupNames key) (fun name => picked [key, name]) fun _ => id

namespace Checked

/-- The result with the paths of its issues changed. -/
def mapPaths (f : List String → List String) : Checked α → Checked α
  | valid a => valid a
  | invalid is => invalid (is.map fun i => { i with path := f i.path })

theorem mapPaths_ap (f : List String → List String) (g : Checked (α → β)) (x : Checked α) :
    (g.ap x).mapPaths f = (g.mapPaths f).ap (x.mapPaths f) := by
  cases g <;> cases x <;> simp [ap, mapPaths, issues]

theorem mapPaths_also (f : List String → List String) (x : Checked α) (more : List Issue) :
    (x.also more).mapPaths f =
      (x.mapPaths f).also (more.map fun i => { i with path := f i.path }) := by
  cases x <;> cases more <;> simp [also, mapPaths, issues]

theorem mapPaths_under (x : Checked α) :
    (x.under key).mapPaths (renamedPath vocabulary picked innerPath) =
      (x.mapPaths (innerPath key)).under (renamedKey vocabulary picked key) := by
  cases x <;> simp [under, mapPaths, renamedPath]

theorem mapPaths_ofExcept {f : List String → List String} (root : f [] = [])
    (x : Except Fault α) : (ofExcept x).mapPaths f = ofExcept x := by
  cases x <;> simp [ofExcept, mapPaths, root]

end Checked

/-! ## Options that are given once -/

/-- No two members give one option. -/
def GivesOnce (vocabulary : List OptionName) (members : List (String × OptionValue)) : Prop :=
  members.Pairwise fun m m' => ∀ n ∈ vocabulary, n.Covers m.1 → ¬ n.Covers m'.1

instance : Decidable (GivesOnce vocabulary members) :=
  inferInstanceAs (Decidable (members.Pairwise fun m m' =>
    ∀ n ∈ vocabulary, n.Covers m.1 → ¬ n.Covers m'.1))

namespace GivesOnce

theorem unique (once : GivesOnce vocabulary members) (named : n ∈ vocabulary)
    {m m' : String × OptionValue} (mem : m ∈ members) (mem' : m' ∈ members) (covers : n.Covers m.1)
    (covers' : n.Covers m'.1) : m = m' := by
  induction members with
  | nil => cases mem
  | cons first rest ih =>
    obtain ⟨apart, once⟩ := List.pairwise_cons.1 once
    rcases List.mem_cons.1 mem with same | later <;> rcases List.mem_cons.1 mem' with same' | later'
    · rw [same, same']
    · rw [same] at covers
      exact absurd covers' (apart m' later' n named covers)
    · rw [same'] at covers'
      exact absurd covers (apart m later n named covers')
    · exact ih once later later'

theorem find?_iff (once : GivesOnce vocabulary members) (named : n ∈ vocabulary)
    {m : String × OptionValue} : n.find? members = some m ↔ m ∈ members ∧ n.Covers m.1 := by
  constructor
  · exact OptionName.find?_eq_some
  · rintro ⟨mem, covers⟩
    cases found : n.find? members with
    | none => exact absurd ⟨m, mem, covers⟩ (OptionName.find?_eq_none.1 found)
    | some m' =>
      obtain ⟨mem', covers'⟩ := OptionName.find?_eq_some found
      rw [once.unique named mem mem' covers covers']

theorem takes_iff (once : GivesOnce vocabulary members) (named : n ∈ vocabulary)
    {m : String × OptionValue} (mem : m ∈ members) :
    n.takes members m.1 = true ↔ n.Covers m.1 := by
  rw [OptionName.takes_iff]
  constructor
  · rintro ⟨v, found⟩
    exact (OptionName.find?_eq_some found).2
  · intro covers
    exact ⟨m.2, (once.find?_iff named).2 ⟨mem, covers⟩⟩

end GivesOnce

/-- Where the names of the members differ, as in any JSON object, options are given once exactly if
none is given under both of its names. -/
theorem givesOnce_iff (distinct : (members.map (·.1)).Nodup) :
    GivesOnce vocabulary members ↔ ∀ n ∈ vocabulary, n.preferred ≠ n.plain →
      ¬ (n.preferred ∈ members.map (·.1) ∧ n.plain ∈ members.map (·.1)) := by
  constructor
  · rintro once n named differ ⟨first, second⟩
    obtain ⟨m, mem, preferred⟩ := List.mem_map.1 first
    obtain ⟨m', mem', plain⟩ := List.mem_map.1 second
    have same := once.unique named mem mem' (.inl preferred) (.inr plain)
    exact differ (by rw [← preferred, ← plain, same])
  · intro single
    refine (List.pairwise_map.1 distinct).imp_of_mem ?_
    intro m m' mem mem' apart n named covers covers'
    have both : ∀ {m m' : String × OptionValue}, m ∈ members → m' ∈ members → m.1 ≠ m'.1 →
        m.1 = n.preferred → m'.1 = n.plain → False := by
      intro m m' mem mem' apart preferred plain
      refine single n named (by rwa [← preferred, ← plain]) ⟨?_, ?_⟩
      · exact preferred ▸ List.mem_map_of_mem mem
      · exact plain ▸ List.mem_map_of_mem mem'
    rcases covers with preferred | plain <;> rcases covers' with preferred' | plain'
    · exact apart (preferred.trans preferred'.symm)
    · exact both mem mem' apart preferred plain'
    · exact both mem' mem (Ne.symm apart) preferred' plain
    · exact apart (plain.trans plain'.symm)

/-- A member has a name of the same option as before. -/
theorem covers_renamedKey (apart : Apart vocabulary) (named : n ∈ vocabulary) :
    n.Covers (renamedKey vocabulary picked key) ↔ n.Covers key := by
  unfold renamedKey otherName
  split
  · cases found : vocabulary.find? fun n => decide (n.Covers key) with
    | none => rfl
    | some n' =>
      have named' : n' ∈ vocabulary := List.mem_of_find?_eq_some found
      have covers' : n'.Covers key := by simpa using List.find?_some found
      have other : n'.Covers (if key = n'.preferred then n'.plain else n'.preferred) := by
        split
        · exact .inr rfl
        · exact .inl rfl
      constructor
      · intro covers
        rwa [apart.eq named named' covers other]
      · intro covers
        rwa [apart.eq named named' covers covers']
  · rfl

section Renamed
variable (apart : Apart vocabulary) (once : GivesOnce vocabulary members)
include apart once

theorem GivesOnce.renamed :
    GivesOnce vocabulary (renamedMembers vocabulary picked inner members) := by
  refine List.pairwise_map.2 (once.imp ?_)
  intro m m' distinct n named
  rw [covers_renamedKey apart named, covers_renamedKey apart named]
  exact distinct n named

theorem find?_renamed (named : n ∈ vocabulary) :
    n.find? (renamedMembers vocabulary picked inner members) =
      (n.find? members).map fun m => (renamedKey vocabulary picked m.1, inner m.1 m.2) := by
  cases found : n.find? members with
  | none =>
    rw [OptionName.find?_eq_none] at found
    refine OptionName.find?_eq_none.2 fun ⟨m', mem', covers⟩ => found ?_
    obtain ⟨m, mem, rfl⟩ := List.mem_map.1 mem'
    exact ⟨m, mem, (covers_renamedKey apart named).1 covers⟩
  | some m =>
    obtain ⟨mem, covers⟩ := OptionName.find?_eq_some found
    exact ((once.renamed apart).find?_iff named).2
      ⟨List.mem_map_of_mem mem, (covers_renamedKey apart named).2 covers⟩

/-- An option is read the same if its reader does not see what is done to its value. -/
theorem read_renamed (named : n ∈ vocabulary)
    (same : ∀ key v, (key, v) ∈ members → n.Covers key →
      reader (inner key v) = (reader v).mapPaths (innerPath key)) :
    n.read (renamedMembers vocabulary picked inner members) dflt reader =
      (n.read members dflt reader).mapPaths (renamedPath vocabulary picked innerPath) := by
  rw [OptionName.read, OptionName.read, find?_renamed apart once named]
  cases found : n.find? members with
  | none => rfl
  | some m =>
    obtain ⟨key, v⟩ := m
    obtain ⟨mem, covers⟩ := OptionName.find?_eq_some found
    simp only [Option.map_some]
    rw [same key v mem covers, Checked.mapPaths_under]

/-- The same members are strangers. -/
theorem strangers_renamed (root : ∀ key, innerPath key [] = []) :
    strangers vocabulary (renamedMembers vocabulary picked inner members) =
      (strangers vocabulary members).map fun i =>
        { i with path := renamedPath vocabulary picked innerPath i.path } := by
  have taken : ∀ m ∈ members,
      vocabulary.any (·.takes (renamedMembers vocabulary picked inner members)
        (renamedKey vocabulary picked m.1)) = vocabulary.any (·.takes members m.1) := by
    intro m mem
    have mem' : (renamedKey vocabulary picked m.1, inner m.1 m.2) ∈
        renamedMembers vocabulary picked inner members := List.mem_map_of_mem mem
    rw [Bool.eq_iff_iff, List.any_eq_true, List.any_eq_true]
    refine exists_congr fun n => and_congr_right fun named => ?_
    rw [once.takes_iff named mem, (once.renamed apart).takes_iff named mem',
      covers_renamedKey apart named]
  have kept : (renamedMembers vocabulary picked inner members).filter
        (fun m => !vocabulary.any (·.takes (renamedMembers vocabulary picked inner members) m.1)) =
      renamedMembers vocabulary picked inner
        (members.filter fun m => !vocabulary.any (·.takes members m.1)) :=
    List.filter_map.trans
      (congrArg _ (List.filter_congr fun m mem => congrArg (!·) (taken m mem)))
  rw [strangers, strangers, kept, renamedMembers, List.map_map, List.map_map]
  exact List.map_congr_left fun m _ => by simp [renamedPath, root]

end Renamed

/-! ## The groups of options -/

namespace OptionReader

/-- Whether all faults that a reader finds are those of the value itself. -/
def IsFlat (reader : OptionValue → Checked α) : Prop := ∀ v, ∃ x, reader v = .ofExcept x

@[simp] theorem isFlat_flag : IsFlat flag := fun _ => ⟨_, rfl⟩

@[simp] theorem isFlat_text : IsFlat text := fun _ => ⟨_, rfl⟩

@[simp] theorem isFlat_atLeast {least : Int} : IsFlat (atLeast least) := fun _ => ⟨_, rfl⟩

@[simp] theorem isFlat_nonempty : IsFlat nonempty := fun _ => ⟨_, rfl⟩

@[simp] theorem isFlat_receiver : IsFlat receiver := fun _ => ⟨_, rfl⟩

theorem IsFlat.mapPaths {f : List String → List String} (flat : IsFlat reader) (root : f [] = [])
    (v : OptionValue) : (reader v).mapPaths f = reader v := by
  obtain ⟨x, same⟩ := flat v
  rw [same, Checked.mapPaths_ofExcept root]

theorem group_renamed {reader : List (String × OptionValue) → Checked α} {v : OptionValue}
    (same : ∀ members, v = .table members →
      reader (renamedMembers vocabulary picked (fun _ => id) members) =
        (reader members).mapPaths (renamedPath vocabulary picked fun _ => id)) :
    group reader (v.renamed vocabulary picked) =
      (group reader v).mapPaths (renamedPath vocabulary picked fun _ => id) := by
  cases v with
  | table members => exact same members rfl
  | _ => rfl

end OptionReader

/-- In a group without groups all options are read the same. -/
theorem read_renamed_flat (apart : Apart vocabulary) (once : GivesOnce vocabulary members)
    (flat : OptionReader.IsFlat reader) (named : n ∈ vocabulary) :
    n.read (renamedMembers vocabulary picked (fun _ => id) members) dflt reader =
      (n.read members dflt reader).mapPaths (renamedPath vocabulary picked fun _ => id) :=
  read_renamed apart once named fun _ _ _ _ => (flat.mapPaths rfl _).symm

theorem VirtualTextOptions.validate_renamed (once : GivesOnce names members) :
    validate (renamedMembers names picked (fun _ => id) members) =
      (validate members).mapPaths (renamedPath names picked fun _ => id) := by
  unfold validate
  simp (disch := first | decide | simp) only [Checked.mapPaths_also, Checked.mapPaths_ap,
    read_renamed_flat apart_names once]
  rw [← strangers_renamed apart_names once]
  · rfl
  · exact fun _ => rfl

theorem HoverOptions.validate_renamed (once : GivesOnce names members) :
    validate (renamedMembers names picked (fun _ => id) members) =
      (validate members).mapPaths (renamedPath names picked fun _ => id) := by
  unfold validate
  simp (disch := first | decide | simp) only [Checked.mapPaths_also, Checked.mapPaths_ap,
    read_renamed_flat apart_names once]
  rw [← strangers_renamed apart_names once]
  · rfl
  · exact fun _ => rfl

/-! ## Documents -/

/-- No two members give one option, at the top and in every group. -/
def OptionValue.GivesOnce : OptionValue → Prop
  | table members => MessageLens.GivesOnce PreviewOptions.names members ∧
      ∀ key inner, (key, table inner) ∈ members → MessageLens.GivesOnce (groupNames key) inner
  | _ => True

theorem OptionValue.renamed_nil (v : OptionValue) : v.renamed [] picked = v := by
  cases v <;> simp [renamed, renamedMembers, renamedKey, otherName]

namespace PreviewOptions
variable {picked : List String → Bool}

/-- The names of the options that are no groups. -/
def flatNames : List OptionName :=
  [.single "enabled", ⟨"debounceMs", "debounce_ms"⟩, ⟨"projectMarkerPath", "project_marker_path"⟩,
    .single "receiver"]

theorem groupNames_eq_nil (named : n ∈ flatNames) (covers : n.Covers key) :
    groupNames key = [] := by
  have both : ∀ n ∈ flatNames, groupNames n.preferred = [] ∧ groupNames n.plain = [] := by decide
  rcases covers with rfl | rfl
  · exact (both n named).1
  · exact (both n named).2

theorem read_respelled_flat (once : GivesOnce names members) (flat : OptionReader.IsFlat reader)
    (named : n ∈ flatNames) :
    n.read (respelledMembers picked members) dflt reader =
      (n.read members dflt reader).mapPaths (respelledPath picked) := by
  have known : ∀ n ∈ flatNames, n ∈ names := by decide
  refine read_renamed apart_names once (known n named) fun key v _ covers => ?_
  rw [groupNames_eq_nil named covers, OptionValue.renamed_nil]
  exact (flat.mapPaths rfl v).symm

variable (once : GivesOnce names members)
  (onceInside : ∀ key inner, (key, .table inner) ∈ members → GivesOnce (groupNames key) inner)
include once onceInside

theorem read_virtualText_respelled {dflt : VirtualTextOptions} :
    (OptionName.mk "virtualText" "virtual_text").read (respelledMembers picked members) dflt
        (OptionReader.group VirtualTextOptions.validate) =
      ((OptionName.mk "virtualText" "virtual_text").read members dflt
        (OptionReader.group VirtualTextOptions.validate)).mapPaths (respelledPath picked) := by
  refine read_renamed apart_names once (by decide) fun key v mem covers => ?_
  have group : groupNames key = VirtualTextOptions.names := if_pos covers
  rw [group]
  refine OptionReader.group_renamed fun inner table => ?_
  subst table
  exact VirtualTextOptions.validate_renamed (group ▸ onceInside key inner mem)

theorem read_hover_respelled {dflt : HoverOptions} :
    (OptionName.single "hover").read (respelledMembers picked members) dflt
        (OptionReader.group HoverOptions.validate) =
      ((OptionName.single "hover").read members dflt
        (OptionReader.group HoverOptions.validate)).mapPaths (respelledPath picked) := by
  refine read_renamed apart_names once (by decide) fun key v mem covers => ?_
  have group : groupNames key = HoverOptions.names := by
    rcases covers with rfl | rfl <;> decide
  rw [group]
  refine OptionReader.group_renamed fun inner table => ?_
  subst table
  exact HoverOptions.validate_renamed (group ▸ onceInside key inner mem)

/-- A document under other names has the same options, or the same issues at the new paths. -/
theorem validateMembers_respelled :
    validateMembers (respelledMembers picked members) =
      (validateMembers members).mapPaths (respelledPath picked) := by
  unfold validateMembers
  simp (disch := first | decide | simp) only [Checked.mapPaths_also, Checked.mapPaths_ap,
    read_respelled_flat once, read_virtualText_respelled once onceInside,
    read_hover_respelled once onceInside]
  unfold respelledMembers respelledPath
  rw [← strangers_renamed apart_names once]
  · rfl
  · exact fun _ => rfl

omit once onceInside

theorem validate_respelled {document : OptionValue} (once : document.GivesOnce) :
    validate (document.respelled picked) = (validate document).mapPaths (respelledPath picked) := by
  cases document with
  | table members => exact validateMembers_respelled once.1 once.2
  | _ => rfl

/-- What is accepted gives each option under one name, within its bounds; and where options are
given once, it does not matter under which of their names. The documents are those of any format;
among them are all JSON documents. -/
theorem validate_strict_either_name (document : OptionValue) :
    (∀ o, validate document = .valid o → ∃ members, document = .table members ∧ Accepts members o) ∧
      (document.GivesOnce → ∀ picked,
        validate (document.respelled picked) =
          (validate document).mapPaths (respelledPath picked)) := by
  refine ⟨fun o valid => ?_, fun once picked => validate_respelled once⟩
  obtain ⟨members, table, valid⟩ := OptionReader.group_eq_valid.1 valid
  exact ⟨members, table, accepts_of_valid valid⟩

/-- A document with an option below its bound, and a member that gives no option. -/
def faultyDocument : OptionValue :=
  .table [("debounce_ms", .int (-1)),
    ("virtualText", .table [("max_length", .int 8), ("bogus", .flag true)])]

/-- A document that is accepted, and the faults of one with one member at the top and all members of
a group under their other names. -/
theorem validate_strict_either_name_virtualText :
    (∃ members, OptionValue.table [("hover", .table [("delayMs", .text "20")])] = .table members ∧
      Accepts members { hover := { delayMs := 20 } }) ∧
    faultyDocument.GivesOnce ∧
    validate (faultyDocument.respelled fun path => path.length = 2 ∨ path = ["debounce_ms"]) =
      .invalid [⟨["debounceMs"], .greaterThanEqual⟩,
        ⟨["virtualText", "bogus"], .extraForbidden⟩] := by
  have once : faultyDocument.GivesOnce := by
    refine ⟨by decide, fun key inner mem => ?_⟩
    obtain ⟨rfl, rfl⟩ : key = "virtualText" ∧
        inner = [("max_length", .int 8), ("bogus", .flag true)] := by
      simpa using mem
    decide
  refine ⟨(validate_strict_either_name _).1 _ rfl, once, ?_⟩
  rw [(validate_strict_either_name faultyDocument).2 once]
  rfl

end PreviewOptions

end MessageLens
