import Mathlib
import MessageLens.Message.Load
import MessageLens.Proofs.File.Access

/-!
# When messages load

A message file that cannot be read, that is no JSON or that holds no object counts as one without
messages. Of the files that hold an object all load but those that display a pattern with a
composite type: a part of a pattern is asked whether its type is one of the known ones, and a list
or an object cannot be asked. Such a pattern may stand at any depth, and the texts beside it are
lost with it.
-/

namespace MessageLens
set_option autoImplicit false

section Failing

variable {ε ε' α β : Type}

/-- A computation that ends in an error. -/
def Fails (x : Except ε α) : Prop := ∃ e, x = .error e

@[simp] theorem not_fails_ok {a : α} : ¬ Fails (.ok a : Except ε α) := by
  rintro ⟨_, h⟩
  cases h

@[simp] theorem not_fails_pure {a : α} : ¬ Fails (pure a : Except ε α) := not_fails_ok

@[simp] theorem fails_error {e : ε} : Fails (.error e : Except ε α) := ⟨e, rfl⟩

@[simp] theorem fails_map {x : Except ε α} {f : α → β} : Fails (x.map f) ↔ Fails x := by
  cases x <;> simp [Except.map]

@[simp] theorem fails_functor {x : Except ε α} {f : α → β} : Fails (f <$> x) ↔ Fails x := fails_map

@[simp] theorem fails_mapError {x : Except ε α} {f : ε → ε'} : Fails (x.mapError f) ↔ Fails x := by
  cases x <;> simp [Except.mapError]

theorem eq_ok_of_toOption {x : Except ε α} {a : α} (found : x.toOption = some a) : x = .ok a := by
  cases x with
  | error e => cases found
  | ok b => exact congrArg Except.ok (Option.some.inj found)

theorem fails_bind {x : Except ε α} {k : α → Except ε β} :
    Fails (x >>= k) ↔ Fails x ∨ ∃ a, x = .ok a ∧ Fails (k a) := by
  cases x <;> simp [bind, Except.bind]

/-- What follows a computation fails alike whatever the computation gives. -/
theorem fails_bind_of_iff {x : Except ε α} {k : α → Except ε β} {p : Prop}
    (later : ∀ a, Fails (k a) ↔ p) : Fails (x >>= k) ↔ Fails x ∨ p := by
  rw [fails_bind]
  cases x <;> simp [later]

theorem fails_mapM {f : α → Except ε β} {as : List α} :
    Fails (as.mapM f) ↔ ∃ a ∈ as, Fails (f a) := by
  induction as with
  | nil => simp
  | cons a as ih =>
    rw [List.mapM_cons, fails_bind]
    cases run : f a <;> simp [ih, run]

end Failing

/-! ## Patterns -/

/-- A list or an object. -/
def Json.isComposite : Json → Bool
  | .arr _ => true
  | .obj _ => true
  | _ => false

/-- An object whose type is itself a list or an object. -/
def HasCompositeType (part : Json) : Prop :=
  ∃ members type, part = .obj members ∧ Json.member? members "type" = some type ∧
    type.isComposite = true

/-- A list of parts, one of which has a composite type. -/
def Undisplayable (pattern : Json) : Prop :=
  ∃ parts, pattern = .arr parts ∧ ∃ part ∈ parts, HasCompositeType part

theorem hasCompositeType_obj {members : List (String × Json)} :
    HasCompositeType (.obj members) ↔
      ∃ type, Json.member? members "type" = some type ∧ type.isComposite = true := by
  simp [HasCompositeType]

theorem partText_fails {part : Json} : Fails (partText part) ↔ HasCompositeType part := by
  cases part with
  | obj members =>
    rw [hasCompositeType_obj]
    cases named : Json.member? members "type" with
    | none => simp [partText, named]
    | some type =>
      cases type with
      | str s =>
        refine iff_of_false ?_ (by simp [Json.isComposite])
        simp only [partText, named]
        split <;> simp_all
      | _ => simp [partText, named, Json.isComposite]
  | _ => simp [partText, HasCompositeType]

theorem patternText_fails {pattern : Json} :
    Fails (patternText pattern) ↔ Undisplayable pattern := by
  unfold Undisplayable
  cases pattern with
  | arr parts => simp [patternText, fails_mapM, partText_fails]
  | _ => simp [patternText]

/-! ## Documents -/

/-- The patterns that a member with some value displays: that of a message, that of the first
variant of a list, and those that the members of a group display. -/
inductive Displays : Json → Json → Prop where
  | message {members : List (String × Json)} {pattern : Json}
      (given : Json.given? members "value" = some pattern) : Displays (.obj members) pattern
  | variant {first : List (String × Json)} {rest : List Json} {pattern : Json}
      (given : Json.given? first "value" = some pattern) :
      Displays (.arr (.obj first :: rest)) pattern
  | group {members : List (String × Json)} {member : String × Json} {pattern : Json}
      (bare : Json.given? members "value" = none) (mem : member ∈ members)
      (displays : Displays member.2 pattern) : Displays (.obj members) pattern

/-- A value that displays a pattern with a composite type. -/
def Defective (v : Json) : Prop := ∃ pattern, Displays v pattern ∧ Undisplayable pattern

theorem defective_message {members : List (String × Json)} {pattern : Json}
    (given : Json.given? members "value" = some pattern) :
    Defective (.obj members) ↔ Undisplayable pattern := by
  constructor
  · rintro ⟨p, displays, bad⟩
    cases displays with
    | message given' =>
      rw [given] at given'
      cases given'
      exact bad
    | group bare =>
      rw [given] at bare
      cases bare
  · exact fun bad => ⟨pattern, .message given, bad⟩

theorem defective_group {members : List (String × Json)}
    (bare : Json.given? members "value" = none) :
    Defective (.obj members) ↔ ∃ member ∈ members, Defective member.2 := by
  constructor
  · rintro ⟨p, displays, bad⟩
    cases displays with
    | message given =>
      rw [bare] at given
      cases given
    | group _ mem displays => exact ⟨_, mem, p, displays, bad⟩
  · rintro ⟨member, mem, p, displays, bad⟩
    exact ⟨p, .group bare mem displays, bad⟩

theorem variantText?_fails {variants : List Json} :
    Fails (variantText? variants) ↔ Defective (.arr variants) := by
  have displayed : Defective (.arr variants) ↔ ∃ first rest pattern,
      variants = .obj first :: rest ∧ Json.given? first "value" = some pattern ∧
        Undisplayable pattern := by
    constructor
    · rintro ⟨p, displays, bad⟩
      cases displays with
      | variant given => exact ⟨_, _, p, rfl, given, bad⟩
    · rintro ⟨first, rest, p, rfl, given, bad⟩
      exact ⟨p, .variant given, bad⟩
  rw [displayed]
  unfold variantText?
  split
  next members rest =>
    cases given : Json.given? members "value" <;> simp [given, patternText_fails]
  · simp
  next other _ =>
    constructor
    · exact fun h => (not_fails_ok h).elim
    · rintro ⟨first, rest, _, rfl, _⟩
      exact (other _ _ rfl).elim

theorem not_defective_of_plain {v : Json} (noList : ∀ elems, v ≠ .arr elems)
    (noObject : ∀ members, v ≠ .obj members) : ¬ Defective v := by
  rintro ⟨p, displays, _⟩
  cases displays with
  | message | group => exact noObject _ rfl
  | variant => exact noList _ rfl

/-- The members of a group are read in turn, and what follows a member does not depend on what the
member has added. -/
theorem flattenMembers_fails (scope : String) (table : MessageTable)
    (members : List (String × Json)) :
    Fails (flattenMembers scope table members) ↔ ∃ member ∈ members, Defective member.2 := by
  induction scope, table, members using flattenMembers.induct with
  | case1 => simp [flattenMembers]
  | case2 scope table name rest s later =>
    have plain : ¬ Defective (.str s) := not_defective_of_plain (by simp) (by simp)
    rw [flattenMembers, fails_bind_of_iff later]
    simp [plain]
  | case3 scope table name rest variants later =>
    rw [flattenMembers, fails_bind_of_iff fun text => by cases text <;> exact later _,
      variantText?_fails]
    simp
  | case4 scope table name rest members pattern given later =>
    simp only [flattenMembers, given, pure_bind]
    rw [fails_bind_of_iff fun text => later _, patternText_fails, ← defective_message given]
    simp
  | case5 scope table name rest key members bare later inner =>
    simp only [flattenMembers, bare, pure_bind]
    rw [fails_bind_of_iff fun group => later _, inner, ← defective_group bare]
    simp
  | case6 scope table name v rest noText noList noObject later =>
    have plain : ¬ Defective v := not_defective_of_plain noList noObject
    rw [flattenMembers, fails_bind_of_iff later]
    · simp [plain]
    · exact noText
    · exact noList
    · exact noObject

theorem flatten_fails {document : Json} : Fails (flatten document) ↔
    ∃ members, document = .obj members ∧ ∃ member ∈ members, Defective member.2 := by
  cases document with
  | obj members => simp [flatten, flattenMembers_fails]
  | _ => simp [flatten]

/-! ## Files -/

/-- The members of the object that a file holds. -/
def HoldsObject (w : Workspace) (file : Path) (members : List (String × Json)) : Prop :=
  ∃ content, w.read file = .ok content ∧ Json.ofBytes? content = some (.obj members)

/-- The file of a path that is accepted gives a document or a record of why there is none. -/
theorem readMessageFile_ok (w : Workspace) {file : Path} (accepted : IsAccepted file) :
    (∃ document, readMessageFile w file = .ok (.ok document) ∧
      ∀ members, HoldsObject w file members ↔ document = .obj members) ∨
    ∃ record, readMessageFile w file = .ok (.error record) ∧
      ∀ members, ¬ HoldsObject w file members := by
  unfold HoldsObject readMessageFile
  cases content : w.read file with
  | error e => simp [read_reported accepted content]
  | ok bytes => cases parsed : Json.ofBytes? bytes <;> simp [parsed]

section Loading

variable {w : Workspace} {root : Path} {pattern locale : String}

theorem loadMessages_of_document {document : Json}
    (read : readMessageFile w (messagePath root pattern locale) = .ok (.ok document)) :
    loadMessages w root pattern locale =
      ((flatten document).map fun messages => (messages, [])).mapError .pattern := by
  rw [loadMessages, read]
  cases flattened : flatten document <;>
    simp [bind, Except.bind, Except.mapError, Except.map, flattened, pure, Except.pure]

theorem loadMessages_of_record {record : LogRecord}
    (read : readMessageFile w (messagePath root pattern locale) = .ok (.error record)) :
    loadMessages w root pattern locale = .ok (∅, [record]) := by
  rw [loadMessages, read]
  rfl

/-- An object in the file that displays a pattern with a composite type. -/
def HoldsDefect (w : Workspace) (file : Path) : Prop :=
  ∃ members, HoldsObject w file members ∧ ∃ member ∈ members, Defective member.2

theorem loadMessages_fails (accepted : IsAccepted (messagePath root pattern locale)) :
    Fails (loadMessages w root pattern locale) ↔
      HoldsDefect w (messagePath root pattern locale) := by
  rcases readMessageFile_ok w accepted with ⟨document, read, object⟩ | ⟨record, read, noObject⟩
  · rw [loadMessages_of_document read, fails_mapError, fails_map, flatten_fails]
    simp only [HoldsDefect, object]
  · rw [loadMessages_of_record read]
    exact iff_of_false not_fails_ok fun ⟨members, holds, _⟩ => noObject members holds

/-- There is no other reason for loading to fail. -/
theorem loadMessages_error (accepted : IsAccepted (messagePath root pattern locale))
    {e : LoadError} (failed : loadMessages w root pattern locale = .error e) :
    e = .pattern .compositeType := by
  rcases readMessageFile_ok w accepted with ⟨document, read, -⟩ | ⟨record, read, -⟩
  · rw [loadMessages_of_document read] at failed
    cases flattened : flatten document with
    | ok messages =>
      rw [flattened] at failed
      cases failed
    | error cause =>
      rw [flattened] at failed
      cases failed
      rfl
  · rw [loadMessages_of_record read] at failed
    cases failed

theorem loadMessages_no_object (accepted : IsAccepted (messagePath root pattern locale))
    (noObject : ∀ members, ¬ HoldsObject w (messagePath root pattern locale) members) :
    ∃ records, loadMessages w root pattern locale = .ok (∅, records) := by
  rcases readMessageFile_ok w accepted with ⟨document, read, object⟩ | ⟨record, read, -⟩
  · refine ⟨[], ?_⟩
    rw [loadMessages_of_document read]
    cases document with
    | obj members => exact (noObject members ((object members).2 rfl)).elim
    | _ => rfl
  · exact ⟨[record], loadMessages_of_record read⟩

theorem loadMessages_defect (accepted : IsAccepted (messagePath root pattern locale)) :
    loadMessages w root pattern locale = .error (.pattern .compositeType) ↔
      HoldsDefect w (messagePath root pattern locale) := by
  rw [← loadMessages_fails accepted]
  constructor
  · exact fun failed => ⟨_, failed⟩
  · rintro ⟨e, failed⟩
    rw [failed, loadMessages_error accepted failed]

/-- Loading degrades on every path that the operating system accepts: it fails just on a file whose
object displays a pattern with a composite type, and a file that holds no object counts as one
without messages. -/
theorem loading_degrades (accepted : IsAccepted (messagePath root pattern locale)) :
    (loadMessages w root pattern locale = .error (.pattern .compositeType) ↔
      HoldsDefect w (messagePath root pattern locale)) ∧
    (¬ HoldsDefect w (messagePath root pattern locale) →
      ∃ messages records, loadMessages w root pattern locale = .ok (messages, records)) ∧
    ((∀ members, ¬ HoldsObject w (messagePath root pattern locale) members) →
      ∃ records, loadMessages w root pattern locale = .ok (∅, records)) := by
  refine ⟨loadMessages_defect accepted, fun sound => ?_, loadMessages_no_object accepted⟩
  cases loaded : loadMessages w root pattern locale with
  | ok both => exact ⟨both.1, both.2, rfl⟩
  | error e => exact (sound ((loadMessages_fails accepted).1 ⟨e, loaded⟩)).elim

end Loading

/-- The content of a message file in which the only part of a pattern has a list for its type. -/
def compositeTypeContent : Bytes :=
  "\x7b\"k\": \x7b\"value\": [\x7b\"type\": []\x7d]\x7d\x7d".toUTF8.toList

theorem compositeTypeContent_parsed : Json.ofBytes? compositeTypeContent =
    some (.obj [("k", .obj [("value", .arr [.obj [("type", .arr [])]])])]) := by
  cbv

theorem HoldsDefect.of_compositeTypeContent {w : Workspace} {file : Path}
    (read : w.read file = .ok compositeTypeContent) : HoldsDefect w file := by
  have composite : HasCompositeType (.obj [("type", .arr [])]) := ⟨_, _, rfl, rfl, rfl⟩
  have undisplayable : Undisplayable (.arr [.obj [("type", .arr [])]]) :=
    ⟨_, rfl, _, List.mem_singleton.2 rfl, composite⟩
  exact ⟨_, ⟨_, read, compositeTypeContent_parsed⟩, _, List.mem_singleton.2 rfl, _, .message rfl,
    undisplayable⟩

/-- A disk whose only file is such a message file. -/
def compositeTypeDisk : Disk := ⟨[(["en.json"], .file compositeTypeContent 0)]⟩

theorem compositeTypeDisk_accepted : IsAccepted (messagePath ⟨.root, []⟩ "./en.json" "en") := by
  unfold IsAccepted
  decide +kernel

/-- The messages of the file cannot be loaded although its path is accepted. -/
theorem compositeType_not_loaded :
    IsAccepted (messagePath ⟨.root, []⟩ "./en.json" "en") ∧
    ∀ messages, loadMessages { disk := compositeTypeDisk } ⟨.root, []⟩ "./en.json" "en" ≠
      .ok messages := by
  refine ⟨compositeTypeDisk_accepted, fun messages loaded => ?_⟩
  rw [(loadMessages_defect compositeTypeDisk_accepted).2 (.of_compositeTypeContent rfl)] at loaded
  cases loaded

theorem loading_degrades_compositeType :
    IsAccepted (messagePath ⟨.root, []⟩ "./en.json" "en") ∧
    loadMessages { disk := compositeTypeDisk } ⟨.root, []⟩ "./en.json" "en" =
      .error (.pattern .compositeType) ∧
    ∃ records, loadMessages {} ⟨.root, []⟩ "./en.json" "en" = .ok (∅, records) := by
  have degrades (w : Workspace) := loading_degrades (w := w) compositeTypeDisk_accepted
  have missing : ({} : Workspace).read (messagePath ⟨.root, []⟩ "./en.json" "en") =
      .error .missing := rfl
  refine ⟨compositeTypeDisk_accepted, (degrades _).1.2 (.of_compositeTypeContent rfl),
    (degrades _).2.2 ?_⟩
  rintro members ⟨content, read, -⟩
  rw [missing] at read
  cases read

end MessageLens
