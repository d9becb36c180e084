import Mathlib
import MessageLens.Options.Validation
import MessageLens.Proofs.Reference.Dotted
import MessageLens.Proofs.Table

/-!
# Options that are accepted

A document that is accepted has only names of options in it, and no option under both of its names.
Each option then has what its reader makes of the value given for it, and its default if none is
given; so the bounds of the readers hold of all options, however they have come about.
-/

namespace MessageLens
set_option autoImplicit false

variable {α β ω : Type} {members : List (String × OptionValue)} {vocabulary : List OptionName}
  {n : OptionName} {key : String} {a dflt : α} {reader : OptionValue → Checked α}

/-! ## Results without issues -/

namespace Checked

theorem ap_eq_valid {f : Checked (α → β)} {x : Checked α} {b : β} :
    f.ap x = .valid b ↔ ∃ g a, f = .valid g ∧ x = .valid a ∧ g a = b := by
  cases f <;> cases x <;> simp [ap]

theorem also_eq_valid {x : Checked α} {more : List Issue} :
    x.also more = .valid a ↔ x = .valid a ∧ more = [] := by
  cases x <;> cases more <;> simp [also]

theorem under_eq_valid {x : Checked α} {name : String} :
    x.under name = .valid a ↔ x = .valid a := by
  cases x <;> simp [under]

theorem ofExcept_eq_valid {x : Except Fault α} : ofExcept x = .valid a ↔ x = .ok a := by
  cases x <;> simp [ofExcept]

end Checked

/-! ## Names -/

namespace OptionName

/-- Whether an option has a name. -/
def Covers (n : OptionName) (key : String) : Prop := key = n.preferred ∨ key = n.plain

instance : DecidableRel Covers := fun n key =>
  inferInstanceAs (Decidable (key = n.preferred ∨ key = n.plain))

/-- Whether some member gives the option. -/
def IsGiven (n : OptionName) (members : List (String × OptionValue)) : Prop :=
  ∃ m ∈ members, n.Covers m.1

theorem lookup_isSome_of_mem {m : String × OptionValue} (mem : m ∈ members) :
    ∃ v, members.lookup m.1 = some v := by
  rw [← Option.ne_none_iff_exists']
  intro none
  simpa using List.lookup_eq_none_iff.1 none m mem

/-- What gives an option is one of the members, under a name of the option. -/
theorem find?_eq_some {v : OptionValue} (found : n.find? members = some (key, v)) :
    (key, v) ∈ members ∧ n.Covers key := by
  unfold find? at found
  cases preferred : members.lookup n.preferred with
  | some v' =>
    rw [preferred] at found
    cases found
    exact ⟨Table.mem_of_lookup preferred, .inl rfl⟩
  | none =>
    rw [preferred] at found
    obtain ⟨v', plain, same⟩ := Option.map_eq_some_iff.1 found
    cases same
    exact ⟨Table.mem_of_lookup plain, .inr rfl⟩

theorem find?_eq_none : n.find? members = none ↔ ¬ n.IsGiven members := by
  constructor
  · rintro none ⟨m, mem, covers⟩
    obtain ⟨v, found⟩ := lookup_isSome_of_mem mem
    unfold find? at none
    rcases covers with same | same
    · rw [← same, found] at none
      cases none
    · rw [← same, found] at none
      split at none <;> cases none
  · intro absent
    by_contra given
    obtain ⟨⟨key, v⟩, found⟩ := Option.ne_none_iff_exists'.1 given
    obtain ⟨mem, covers⟩ := find?_eq_some found
    exact absent ⟨_, mem, covers⟩

/-- Of both names the preferred one counts. -/
theorem find?_preferred {m : String × OptionValue} (mem : m ∈ members)
    (preferred : m.1 = n.preferred) : ∃ v, n.find? members = some (n.preferred, v) := by
  obtain ⟨v, found⟩ := lookup_isSome_of_mem mem
  exact ⟨v, by rw [find?, ← preferred, found]⟩

theorem takes_iff : n.takes members key = true ↔ ∃ v, n.find? members = some (key, v) := by
  unfold takes
  cases found : n.find? members with
  | none => simp
  | some m =>
    obtain ⟨key', v⟩ := m
    simp

theorem read_eq_valid : n.read members dflt reader = .valid a ↔
    (¬ n.IsGiven members ∧ dflt = a) ∨
      ∃ key v, n.find? members = some (key, v) ∧ reader v = .valid a := by
  rw [← find?_eq_none, read]
  cases found : n.find? members with
  | none => simp
  | some m =>
    obtain ⟨key, v⟩ := m
    simp [Checked.under_eq_valid]

/-- What holds of the default and of everything that the reader gives holds of what is read. -/
theorem read_satisfies {p : α → Prop} (read : n.read members dflt reader = .valid a)
    (start : p dflt) (reads : ∀ v a, reader v = .valid a → p a) : p a := by
  rcases read_eq_valid.1 read with ⟨-, rfl⟩ | ⟨key, v, -, given⟩
  · exact start
  · exact reads v a given

end OptionName

/-- Two options with a name in common are the same option. -/
def Apart (vocabulary : List OptionName) : Prop :=
  ∀ n ∈ vocabulary, ∀ n' ∈ vocabulary, n.Covers n'.preferred ∨ n.Covers n'.plain → n = n'

instance : Decidable (Apart vocabulary) :=
  inferInstanceAs (Decidable (∀ n ∈ vocabulary, ∀ n' ∈ vocabulary,
    n.Covers n'.preferred ∨ n.Covers n'.plain → n = n'))

theorem Apart.eq {n' : OptionName} (apart : Apart vocabulary) (mem : n ∈ vocabulary)
    (mem' : n' ∈ vocabulary) (covers : n.Covers key) (covers' : n'.Covers key) : n = n' := by
  refine apart n mem n' mem' ?_
  rcases covers' with rfl | rfl
  · exact .inl covers
  · exact .inr covers

/-- Every member gives an option, and no option is given under both of its names. -/
structure NamesOptions (vocabulary : List OptionName) (members : List (String × OptionValue)) :
    Prop where
  known : ∀ m ∈ members, ∃ n ∈ vocabulary, n.Covers m.1
  single : ∀ n ∈ vocabulary, n.preferred ≠ n.plain →
    ¬ (n.preferred ∈ members.map (·.1) ∧ n.plain ∈ members.map (·.1))

/-- Where there are no strangers, all members have names of options; the second name of an option
that is given under both would be a stranger. -/
theorem namesOptions_of_strangers (apart : Apart vocabulary)
    (none : strangers vocabulary members = []) : NamesOptions vocabulary members := by
  have taken : ∀ m ∈ members, ∃ n ∈ vocabulary, ∃ v, n.find? members = some (m.1, v) := by
    intro m mem
    have passed := List.filter_eq_nil_iff.1 (List.map_eq_nil_iff.1 none) m mem
    simpa [OptionName.takes_iff] using passed
  constructor
  · intro m mem
    obtain ⟨n, named, v, found⟩ := taken m mem
    exact ⟨n, named, (OptionName.find?_eq_some found).2⟩
  · rintro n named differ ⟨first, second⟩
    obtain ⟨m, mem, preferred⟩ := List.mem_map.1 first
    obtain ⟨m', mem', plain⟩ := List.mem_map.1 second
    obtain ⟨v, found⟩ := OptionName.find?_preferred mem preferred
    obtain ⟨n', named', v', found'⟩ := taken m' mem'
    obtain rfl := apart.eq named named' (.inr plain) (OptionName.find?_eq_some found').2
    rw [found] at found'
    exact differ ((Prod.mk.inj (Option.some.inj found')).1.trans plain)

/-! ## Fields -/

/-- A field of a group of options: its name, how it is read, and where it is kept. -/
structure OptionField (ω : Type) where
  name : OptionName
  {α : Type}
  reader : OptionValue → Checked α
  get : ω → α

/-- Every option has what is read for it, or its default. -/
def FieldsRead (fields : List (OptionField ω)) (dflt : ω) (members : List (String × OptionValue))
    (o : ω) : Prop :=
  ∀ f ∈ fields, f.name.read members (f.get dflt) f.reader = .valid (f.get o)

/-- Every option that no member gives has its default. -/
def KeepsDefaults (fields : List (OptionField ω)) (dflt : ω)
    (members : List (String × OptionValue)) (o : ω) : Prop :=
  ∀ f ∈ fields, ¬ f.name.IsGiven members → f.get o = f.get dflt

theorem FieldsRead.keepsDefaults {fields : List (OptionField ω)} {dflt o : ω}
    (reads : FieldsRead fields dflt members o) : KeepsDefaults fields dflt members o := by
  intro f mem absent
  rcases OptionName.read_eq_valid.1 (reads f mem) with ⟨-, same⟩ | ⟨key, v, found, -⟩
  · exact same.symm
  · exact absurd (OptionName.find?_eq_none.2 absent) (by rw [found]; simp)

/-! ## Bounds of the readers -/

namespace OptionReader

/-- A value that is let through has passed the test. -/
theorem passed {x : Except Fault α} {p : α → Prop} [DecidablePred p] {fault : Fault}
    (accepted : Checked.ofExcept (x >>= fun b => if p b then pure b else throw fault) = .valid a) :
    p a := by
  rw [Checked.ofExcept_eq_valid] at accepted
  cases x with
  | error e => cases accepted
  | ok b =>
    by_cases test : p b
    · simp only [bind, Except.bind, if_pos test] at accepted
      cases accepted
      exact test
    · simp only [bind, Except.bind, if_neg test] at accepted
      cases accepted

theorem atLeast_ge {least k : Int} {v : OptionValue} (read : atLeast least v = .valid k) :
    least ≤ k :=
  passed read

theorem nonempty_ne {s : String} {v : OptionValue} (read : nonempty v = .valid s) : s ≠ "" := by
  have tested : Checked.ofExcept (v.toText >>= fun s =>
      if s ≠ "" then pure s else throw .stringTooShort) = .valid s := by
    simpa only [nonempty, ne_eq, ite_not] using read
  exact passed (p := fun s => s ≠ "") tested

theorem receiver_identifier {s : String} {v : OptionValue} (read : receiver v = .valid s) :
    IsIdentifier s.toList :=
  isReceiver_iff.1 (passed (p := fun s : String => isReceiver s.toList = true) read)

theorem group_eq_valid {reader : List (String × OptionValue) → Checked α} {v : OptionValue} :
    group reader v = .valid a ↔ ∃ inner, v = .table inner ∧ reader inner = .valid a := by
  cases v <;> simp [group]

theorem read_group {reader : List (String × OptionValue) → Checked α} {v : OptionValue}
    (read : n.read members dflt (group reader) = .valid a)
    (found : n.find? members = some (key, v)) :
    ∃ inner, v = .table inner ∧ reader inner = .valid a := by
  rcases OptionName.read_eq_valid.1 read with ⟨absent, -⟩ | ⟨key', v', found', given⟩
  · rw [OptionName.find?_eq_none.2 absent] at found
    cases found
  · rw [found] at found'
    cases found'
    exact group_eq_valid.1 given

end OptionReader

namespace VirtualTextOptions

/-- The options for the appearance of annotations. -/
def fields : List (OptionField VirtualTextOptions) :=
  [⟨.single "prefix", OptionReader.text, (·.lead)⟩,
    ⟨⟨"highlightResolved", "highlight_resolved"⟩, OptionReader.text, (·.highlightResolved)⟩,
    ⟨⟨"highlightMissingKey", "highlight_missing_key"⟩, OptionReader.text, (·.highlightMissingKey)⟩,
    ⟨⟨"highlightMissingLocale", "highlight_missing_locale"⟩, OptionReader.text,
      (·.highlightMissingLocale)⟩,
    ⟨⟨"maxLength", "max_length"⟩, OptionReader.atLeast 4, (·.maxLength)⟩,
    ⟨⟨"showMissing", "show_missing"⟩, OptionReader.flag, (·.showMissing)⟩,
    ⟨⟨"missingPrefix", "missing_prefix"⟩, OptionReader.text, (·.missingLead)⟩,
    ⟨⟨"highlightMissingLocales", "highlight_missing_locales"⟩, OptionReader.text,
      (·.highlightMissingLocales)⟩]

theorem apart_names : Apart names := by decide

theorem reads_of_valid {o : VirtualTextOptions} (valid : validate members = .valid o) :
    FieldsRead fields {} members o ∧ strangers names members = [] := by
  obtain ⟨checked, none⟩ := Checked.also_eq_valid.1 valid
  simp only [Checked.ap_eq_valid, Checked.valid.injEq] at checked
  obtain ⟨_, _, ⟨_, _, ⟨_, _, ⟨_, _, ⟨_, _, ⟨_, _, ⟨_, _, ⟨_, _, rfl, lead, rfl⟩, resolved, rfl⟩,
    missingKey, rfl⟩, missingLocale, rfl⟩, maxLength, rfl⟩, showMissing, rfl⟩, missingLead, rfl⟩,
    missingLocales, rfl⟩ := checked
  refine ⟨?_, none⟩
  simpa [FieldsRead, fields] using ⟨lead, resolved, missingKey, missingLocale, maxLength,
    showMissing, missingLead, missingLocales⟩

theorem maxLength_ge {o : VirtualTextOptions} (reads : FieldsRead fields {} members o) :
    4 ≤ o.maxLength := by
  have read := reads ⟨⟨"maxLength", "max_length"⟩, OptionReader.atLeast 4, (·.maxLength)⟩
    (by simp [fields])
  exact OptionName.read_satisfies read (by decide) fun _ _ => OptionReader.atLeast_ge

end VirtualTextOptions

namespace HoverOptions

/-- The options for the hover panel. -/
def fields : List (OptionField HoverOptions) :=
  [⟨.single "enabled", OptionReader.flag, (·.enabled)⟩,
    ⟨⟨"delayMs", "delay_ms"⟩, OptionReader.atLeast 0, (·.delayMs)⟩]

theorem apart_names : Apart names := by decide

theorem reads_of_valid {o : HoverOptions} (valid : validate members = .valid o) :
    FieldsRead fields {} members o ∧ strangers names members = [] := by
  obtain ⟨checked, none⟩ := Checked.also_eq_valid.1 valid
  simp only [Checked.ap_eq_valid, Checked.valid.injEq] at checked
  obtain ⟨_, _, ⟨_, _, rfl, enabled, rfl⟩, delay, rfl⟩ := checked
  exact ⟨by simpa [FieldsRead, fields] using ⟨enabled, delay⟩, none⟩

theorem delayMs_ge {o : HoverOptions} (reads : FieldsRead fields {} members o) : 0 ≤ o.delayMs := by
  have read := reads ⟨⟨"delayMs", "delay_ms"⟩, OptionReader.atLeast 0, (·.delayMs)⟩
    (by simp [fields])
  exact OptionName.read_satisfies read (by decide) fun _ _ => OptionReader.atLeast_ge

end HoverOptions

namespace PreviewOptions

/-- All options of a preview; two of them are groups. -/
def fields : List (OptionField PreviewOptions) :=
  [⟨.single "enabled", OptionReader.flag, (·.enabled)⟩,
    ⟨⟨"debounceMs", "debounce_ms"⟩, OptionReader.atLeast 0, (·.debounceMs)⟩,
    ⟨⟨"virtualText", "virtual_text"⟩, OptionReader.group VirtualTextOptions.validate,
      (·.virtualText)⟩,
    ⟨.single "hover", OptionReader.group HoverOptions.validate, (·.hover)⟩,
    ⟨⟨"projectMarkerPath", "project_marker_path"⟩, OptionReader.nonempty, (·.marker)⟩,
    ⟨.single "receiver", OptionReader.receiver, (·.receiver)⟩]

theorem apart_names : Apart names := by decide

theorem reads_of_valid {o : PreviewOptions} (valid : validateMembers members = .valid o) :
    FieldsRead fields {} members o ∧ strangers names members = [] := by
  obtain ⟨checked, none⟩ := Checked.also_eq_valid.1 valid
  simp only [Checked.ap_eq_valid, Checked.valid.injEq] at checked
  obtain ⟨_, _, ⟨_, _, ⟨_, _, ⟨_, _, ⟨_, _, ⟨_, _, rfl, enabled, rfl⟩, debounce, rfl⟩,
    virtualText, rfl⟩, hover, rfl⟩, marker, rfl⟩, receiver, rfl⟩ := checked
  refine ⟨?_, none⟩
  simpa [FieldsRead, fields] using ⟨enabled, debounce, virtualText, hover, marker, receiver⟩

/-- What the members of an accepted document and the options read from them have to do with each
other, and what holds of the options in any case. -/
structure Accepts (members : List (String × OptionValue)) (o : PreviewOptions) : Prop where
  names : NamesOptions PreviewOptions.names members
  defaults : KeepsDefaults PreviewOptions.fields {} members o
  virtualText : ∀ key v,
    OptionName.find? ⟨"virtualText", "virtual_text"⟩ members = some (key, v) →
      ∃ inner, v = .table inner ∧ NamesOptions VirtualTextOptions.names inner ∧
        KeepsDefaults VirtualTextOptions.fields {} inner o.virtualText
  hover : ∀ key v, (OptionName.single "hover").find? members = some (key, v) →
    ∃ inner, v = .table inner ∧ NamesOptions HoverOptions.names inner ∧
      KeepsDefaults HoverOptions.fields {} inner o.hover
  maxLength : 4 ≤ o.virtualText.maxLength
  debounceMs : 0 ≤ o.debounceMs
  delayMs : 0 ≤ o.hover.delayMs
  marker : o.marker ≠ ""
  receiver : IsIdentifier o.receiver.toList

theorem accepts_of_valid {o : PreviewOptions} (valid : validateMembers members = .valid o) :
    Accepts members o := by
  obtain ⟨reads, none⟩ := reads_of_valid valid
  have virtualText := reads ⟨⟨"virtualText", "virtual_text"⟩,
    OptionReader.group VirtualTextOptions.validate, (·.virtualText)⟩ (by simp [fields])
  have hover := reads ⟨.single "hover", OptionReader.group HoverOptions.validate, (·.hover)⟩
    (by simp [fields])
  have debounce := reads ⟨⟨"debounceMs", "debounce_ms"⟩, OptionReader.atLeast 0, (·.debounceMs)⟩
    (by simp [fields])
  have marker := reads ⟨⟨"projectMarkerPath", "project_marker_path"⟩, OptionReader.nonempty,
    (·.marker)⟩ (by simp [fields])
  have receiver := reads ⟨.single "receiver", OptionReader.receiver, (·.receiver)⟩
    (by simp [fields])
  refine ⟨namesOptions_of_strangers apart_names none, reads.keepsDefaults, ?_, ?_, ?_, ?_, ?_, ?_,
    ?_⟩
  · intro key v found
    obtain ⟨inner, same, valid⟩ := OptionReader.read_group virtualText found
    obtain ⟨reads, none⟩ := VirtualTextOptions.reads_of_valid valid
    exact ⟨inner, same, namesOptions_of_strangers VirtualTextOptions.apart_names none,
      reads.keepsDefaults⟩
  · intro key v found
    obtain ⟨inner, same, valid⟩ := OptionReader.read_group hover found
    obtain ⟨reads, none⟩ := HoverOptions.reads_of_valid valid
    exact ⟨inner, same, namesOptions_of_strangers HoverOptions.apart_names none,
      reads.keepsDefaults⟩
  · refine OptionName.read_satisfies (p := fun o => 4 ≤ o.maxLength) virtualText (by decide) ?_
    intro v o given
    obtain ⟨inner, -, valid⟩ := OptionReader.group_eq_valid.1 given
    exact VirtualTextOptions.maxLength_ge (VirtualTextOptions.reads_of_valid valid).1
  · exact OptionName.read_satisfies (p := (0 ≤ ·)) debounce (by decide)
      fun _ _ => OptionReader.atLeast_ge
  · refine OptionName.read_satisfies (p := fun o => 0 ≤ o.delayMs) hover (by decide) ?_
    intro v o given
    obtain ⟨inner, -, valid⟩ := OptionReader.group_eq_valid.1 given
    exact HoverOptions.delayMs_ge (HoverOptions.reads_of_valid valid).1
  · exact OptionName.read_satisfies (p := (· ≠ "")) marker (by decide)
      fun _ _ => OptionReader.nonempty_ne
  · exact OptionName.read_satisfies (p := fun s => IsIdentifier s.toList) receiver
      (isReceiver_iff.1 (by decide)) fun _ _ => OptionReader.receiver_identifier

end PreviewOptions

end MessageLens
