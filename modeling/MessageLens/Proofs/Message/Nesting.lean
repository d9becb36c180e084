import MessageLens.Proofs.Message.Leaves
import MessageLens.Proofs.Text.Lines

/-!
# Documents as groups of a document

A document that becomes a group of another one keeps its messages. Their keys get the name of the
group and a dot put before them, with two exceptions, which have one cause: a group whose own key
is empty counts as none. So a group without a name at the top adds nothing to the keys inside of
it, and what stands in such a group of the document itself shows its empty names only once the
document is inside of a group that has a name.
-/

namespace MessageLens
set_option autoImplicit false

variable {scope name k : String} {members : List (String × Json)} {path path' : List String}
  {leaf leaf' : Leaf} {table : MessageTable}

/-- A message in a group without a name at the top of its document. -/
def Leaf.IsNameless (leaf : Leaf) : Prop := ∃ name rest, leaf.path = "" :: name :: rest

/-- A path of names without dots. -/
def IsDotFree (path : List String) : Prop := ∀ name ∈ path, '.' ∉ name.toList

/-- A path without the empty names in front of it. -/
def visiblePath (path : List String) : List String := path.dropWhile (· == "")

/-! ## Keys at the top -/

/-- At the top of a document the empty names in front of a path leave no trace. -/
theorem foldl_scopedKey_top (path : List String) :
    path.foldl scopedKey "" = ".".intercalate (visiblePath path) := by
  induction path with
  | nil => rfl
  | cons name path ih =>
    rw [List.foldl_cons, visiblePath]
    by_cases nameless : name = ""
    · subst nameless
      rw [List.dropWhile_cons_of_pos (by simp)]
      exact ih
    · rw [List.dropWhile_cons_of_neg (by simpa using nameless)]
      exact foldl_scopedKey nameless

theorem Leaf.key_top (leaf : Leaf) : leaf.key "" = ".".intercalate (visiblePath leaf.path) :=
  foldl_scopedKey_top leaf.path

theorem visiblePath_head (path : List String) : (visiblePath path).head? ≠ some "" := by
  intro nameless
  have drops := List.head?_dropWhile_not (· == "") path
  rw [visiblePath] at nameless
  rw [nameless] at drops
  simp at drops

/-- A message in no such group shows its whole path. -/
theorem intercalate_visiblePath (named : ¬ leaf.IsNameless) :
    ".".intercalate (visiblePath leaf.path) = ".".intercalate leaf.path := by
  unfold visiblePath
  match same : leaf.path with
  | [] => rfl
  | [name] =>
    by_cases nameless : name = ""
    · subst nameless
      rfl
    · rw [List.dropWhile_cons_of_neg (by simpa using nameless)]
  | name :: name' :: rest =>
    have shown : name ≠ "" := by
      rintro rfl
      exact named ⟨name', rest, same⟩
    rw [List.dropWhile_cons_of_neg (by simpa using shown)]

/-! ## Dotted keys of names without dots -/

/-- Names without dots can be told from the key that they spell. -/
theorem intercalate_injective (dotFree : IsDotFree path) (dotFree' : IsDotFree path')
    (nonempty : path ≠ []) (nonempty' : path' ≠ [])
    (same : ".".intercalate path = ".".intercalate path') : path = path' :=
  Text.intercalate_injective rfl dotFree dotFree' nonempty nonempty' same

/-- So can the visible part of a path. -/
theorem intercalate_visiblePath_injective (dotFree : IsDotFree path) (dotFree' : IsDotFree path')
    (same : ".".intercalate (visiblePath path) = ".".intercalate (visiblePath path')) :
    visiblePath path = visiblePath path' := by
  have visible : ∀ {path : List String}, IsDotFree path → IsDotFree (visiblePath path) :=
    fun dotFree name mem => dotFree name ((List.dropWhile_sublist _).mem mem)
  -- a visible path that spells nothing could only be that of one empty name
  have spellsNothing : ∀ {path : List String}, IsDotFree path →
      ".".intercalate (visiblePath path) = "" → visiblePath path = [] := by
    intro path dotFree nothing
    by_contra nonempty
    have single : visiblePath path = [""] :=
      intercalate_injective (visible dotFree) (by simp [IsDotFree]) nonempty (by simp)
        (by rw [nothing, String.intercalate_singleton])
    exact visiblePath_head path (by rw [single]; rfl)
  by_cases empty : visiblePath path = []
  · rw [empty, String.intercalate_nil] at same
    rw [empty, spellsNothing dotFree' same.symm]
  · by_cases empty' : visiblePath path' = []
    · rw [empty', String.intercalate_nil] at same
      exact absurd (spellsNothing dotFree same) empty
    · exact intercalate_injective (visible dotFree) (visible dotFree') empty empty' same

/-! ## A document as a group -/

/-- The messages of a group are those of its document inside of the group. -/
theorem flatten_group (bare : Json.given? members "value" = none) (k : String) :
    flatten (.obj [(k, .obj members)]) = flatten (.obj members) k := by
  have walk : leavesOf [(k, .obj members)] = (leavesOf members).map (Leaf.under k) := by
    simp [leavesOf, leavesIn, bare]
  have top : scopedKey "" k = k := if_pos rfl
  rw [flatten_eq, flatten_eq, walk, mapM_entry_under, top]

theorem Leaf.entry_prefixed (named : k ≠ "") (located : leaf.path ≠ [])
    (shown : ¬ leaf.IsNameless) :
    leaf.entry k = (leaf.entry "").map fun e => (k ++ "." ++ e.1, e.2) := by
  have prefixed : leaf.key k = k ++ "." ++ leaf.key "" := by
    rw [key_of_named named located, key_top, intercalate_visiblePath shown]
  rw [entry, entry, prefixed]
  cases patternText leaf.pattern <;> rfl

theorem mapM_map_of_forall {α β γ ε : Type} {f : α → Except ε β} {g : α → Except ε γ} {h : β → γ}
    {as : List α} (same : ∀ a ∈ as, g a = (f a).map h) :
    as.mapM g = (as.mapM f).map (List.map h) := by
  induction as with
  | nil => rfl
  | cons a as ih =>
    rw [List.mapM_cons, List.mapM_cons, same a List.mem_cons_self,
      ih fun a mem => same a (List.mem_cons_of_mem _ mem)]
    cases f a <;> cases as.mapM f <;> rfl

/-- With a name, and no message in a group without one, all keys are prefixed. -/
theorem flatten_prefixed (named : k ≠ "") (shown : ∀ leaf ∈ leavesOf members, ¬ leaf.IsNameless) :
    flatten (.obj members) k =
      (flatten (.obj members)).map (Table.mapKeys (k ++ "." ++ ·)) := by
  have injective : ∀ key key' : String, k ++ "." ++ key = k ++ "." ++ key' → key = key' :=
    fun _ _ same => (String.append_right_inj _).1 same
  rw [flatten_eq, flatten_eq, mapM_map_of_forall fun leaf mem =>
    Leaf.entry_prefixed named (path_ne_nil mem) (shown leaf mem)]
  cases (leavesOf members).mapM (Leaf.entry "") with
  | error e => rfl
  | ok entries => exact congrArg Except.ok (Table.mapKeys_ofList injective entries).symm

/-- A document has the keys of its messages and no others. -/
theorem contains_flatten {key : String} (flattened : flatten (.obj members) scope = .ok table) :
    table.contains key = true ↔ ∃ leaf ∈ leavesOf members, leaf.key scope = key := by
  rw [flatten_eq] at flattened
  cases run : (leavesOf members).mapM (Leaf.entry scope) with
  | error e =>
    rw [run] at flattened
    cases flattened
  | ok entries =>
    rw [run] at flattened
    cases flattened
    have keys : (leavesOf members).map (Leaf.key scope) = entries.map (·.1) := by
      rw [← List.forall₂_eq_eq_eq, List.forall₂_map_left_iff, List.forall₂_map_right_iff]
      exact (forall₂_of_mapM run).imp fun leaf e entered => (Leaf.entry_ok.1 entered).1.symm
    rw [Table.contains_ofList, ← List.mem_map, ← keys, List.mem_map]

/-- A key that only the group has: that of a message in a group without a name. -/
theorem nameless_key_grouped {grouped : MessageTable} (bare : Json.given? members "value" = none)
    (named : k ≠ "") (dotFree : ∀ leaf ∈ leavesOf members, IsDotFree leaf.path)
    (mem : leaf ∈ leavesOf members) (nameless : leaf.IsNameless)
    (flattened : flatten (.obj members) = .ok table)
    (nested : flatten (.obj [(k, .obj members)]) = .ok grouped) :
    grouped.contains (k ++ "." ++ ".".intercalate leaf.path) = true ∧
      ¬ table.contains (".".intercalate leaf.path) = true := by
  rw [flatten_group bare] at nested
  rw [contains_flatten nested, contains_flatten flattened]
  refine ⟨⟨leaf, mem, Leaf.key_of_named named (path_ne_nil mem)⟩, ?_⟩
  rintro ⟨other, mem', same⟩
  obtain ⟨name, rest, path⟩ := nameless
  rw [Leaf.key_top] at same
  by_cases nothing : visiblePath other.path = []
  · rw [nothing, path, String.intercalate_nil, String.intercalate_cons_cons] at same
    simp at same
  · have visible : IsDotFree (visiblePath other.path) := fun name mem =>
      dotFree other mem' name ((List.dropWhile_sublist _).mem mem)
    have whole := intercalate_injective visible (dotFree leaf mem) nothing (path_ne_nil mem) same
    exact visiblePath_head other.path (by rw [whole, path]; rfl)

/-- A document that becomes a group keeps its messages, each under the key that the names on its
path spell: at the top without the empty names in front, inside of a named group with all of them.
So a group without a name changes no key. A named one puts its name and a dot before every key,
unless a message stands in a group without a name at the top of the document: if names have no dots,
the key of such a message then has no counterpart in the document. Two messages on paths without
dots have one key exactly if their paths are the same, at the top up to the empty names in front. -/
theorem grouped_keys (bare : Json.given? members "value" = none) (k : String) :
    (∀ scope, flatten (.obj members) scope =
      ((leavesOf members).mapM (Leaf.entry scope)).map Table.ofList) ∧
    (k = "" → flatten (.obj [(k, .obj members)]) = flatten (.obj members)) ∧
    (k ≠ "" → (∀ leaf ∈ leavesOf members, ¬ leaf.IsNameless) →
      flatten (.obj [(k, .obj members)]) =
        (flatten (.obj members)).map (Table.mapKeys (k ++ "." ++ ·))) ∧
    (k ≠ "" → (∀ leaf ∈ leavesOf members, IsDotFree leaf.path) →
      ∀ leaf ∈ leavesOf members, leaf.IsNameless → ∀ table grouped,
        flatten (.obj members) = .ok table → flatten (.obj [(k, .obj members)]) = .ok grouped →
        grouped.contains (k ++ "." ++ ".".intercalate leaf.path) = true ∧
          ¬ table.contains (".".intercalate leaf.path) = true) ∧
    ∀ leaf ∈ leavesOf members, ∀ leaf' ∈ leavesOf members,
      IsDotFree leaf.path → IsDotFree leaf'.path →
      (leaf.key "" = leaf'.key "" ↔ visiblePath leaf.path = visiblePath leaf'.path) ∧
      (k ≠ "" → (leaf.key k = leaf'.key k ↔ leaf.path = leaf'.path)) := by
  refine ⟨fun scope => flatten_eq scope members, ?_, ?_, ?_, ?_⟩
  · rintro rfl
    exact flatten_group bare ""
  · intro named shown
    rw [flatten_group bare, flatten_prefixed named shown]
  · intro named dotFree leaf mem nameless table grouped flattened nested
    exact nameless_key_grouped bare named dotFree mem nameless flattened nested
  · intro leaf mem leaf' mem' dotFree dotFree'
    refine ⟨?_, fun named => ?_⟩
    · rw [Leaf.key_top, Leaf.key_top]
      exact ⟨intercalate_visiblePath_injective dotFree dotFree', congrArg _⟩
    · rw [Leaf.key_of_named named (path_ne_nil mem), Leaf.key_of_named named (path_ne_nil mem'),
        String.append_right_inj]
      exact ⟨intercalate_injective dotFree dotFree' (path_ne_nil mem) (path_ne_nil mem'),
        congrArg _⟩

/-- A group without a name puts no dot before the key of its message. -/
theorem nameless_group_unprefixed :
    Json.given? [("a", .str "x")] "value" = none ∧
    flatten (.obj [("", .obj [("a", .str "x")])]) ≠
      (flatten (.obj [("a", .str "x")])).map (Table.mapKeys ("" ++ "." ++ ·)) := by
  refine ⟨rfl, fun same => ?_⟩
  rw [flatten_group rfl, flatten_eq] at same
  have entries := congrArg Table.entries (Except.ok.inj same)
  exact absurd entries (by decide)

/-- Members with a message whose own name is empty. -/
def shownMembers : List (String × Json) := [("a", .obj [("", .str "x")]), ("b", .str "y")]

/-- Members with a group whose name is empty, and a message beside it. -/
def namelessMembers : List (String × Json) := [("", .obj [("a", .str "x")]), ("a", .str "y")]

theorem leavesOf_shownMembers :
    leavesOf shownMembers = [⟨["a", ""], .str "x"⟩, ⟨["b"], .str "y"⟩] := rfl

theorem leavesOf_namelessMembers :
    leavesOf namelessMembers = [⟨["", "a"], .str "x"⟩, ⟨["a"], .str "y"⟩] := rfl

/-- Both kinds of documents in one group, and the messages that the second confuses at the top. -/
theorem grouped_keys_app :
    Json.given? shownMembers "value" = none ∧ Json.given? namelessMembers "value" = none ∧
    "app" ≠ "" ∧ (∀ leaf ∈ leavesOf shownMembers, ¬ leaf.IsNameless) ∧
    flatten (.obj [("app", .obj shownMembers)]) =
      .ok (Table.ofList [("app.a.", "x"), ("app.b", "y")]) ∧
    (∀ leaf ∈ leavesOf namelessMembers, IsDotFree leaf.path) ∧
    (∃ table grouped, flatten (.obj namelessMembers) = .ok table ∧
      flatten (.obj [("app", .obj namelessMembers)]) = .ok grouped ∧
      grouped.contains "app..a" = true ∧ ¬ table.contains ".a" = true) ∧
    (⟨["", "a"], .str "x"⟩ : Leaf).key "" = (⟨["a"], .str "y"⟩ : Leaf).key "" := by
  have bare : Json.given? namelessMembers "value" = none := rfl
  have shown : ∀ leaf ∈ leavesOf shownMembers, ¬ leaf.IsNameless := by
    rintro leaf mem ⟨name, rest, nameless⟩
    rw [leavesOf_shownMembers] at mem
    rcases List.mem_pair.1 mem with rfl | rfl <;> simp at nameless
  have dotFree : ∀ leaf ∈ leavesOf namelessMembers, IsDotFree leaf.path := by
    intro leaf mem
    rw [leavesOf_namelessMembers] at mem
    rcases List.mem_pair.1 mem with rfl | rfl <;> unfold IsDotFree <;> decide
  have inner : ⟨["", "a"], .str "x"⟩ ∈ leavesOf namelessMembers := List.mem_cons_self
  have beside : ⟨["a"], .str "y"⟩ ∈ leavesOf namelessMembers :=
    List.mem_cons_of_mem _ List.mem_cons_self
  have prefixed := (grouped_keys (show Json.given? shownMembers "value" = none from rfl)
    "app").2.2.1 (by decide) shown
  have rule := grouped_keys bare "app"
  have flattened : flatten (.obj namelessMembers) = .ok (Table.ofList [("a", "x"), ("a", "y")]) :=
    rule.1 ""
  have nested : flatten (.obj [("app", .obj namelessMembers)]) =
      .ok (Table.ofList [("app..a", "x"), ("app.a", "y")]) := by
    rw [flatten_group bare]
    exact rule.1 "app"
  refine ⟨rfl, bare, by decide, shown, ?_, dotFree, ⟨_, _, flattened, nested, ?_⟩, ?_⟩
  · rw [prefixed, flatten_eq]
    rfl
  · exact rule.2.2.2.1 (by decide) dotFree _ inner ⟨"a", [], rfl⟩ _ _ flattened nested
  · exact ((rule.2.2.2.2 _ inner _ beside (dotFree _ inner) (dotFree _ beside)).1).2 rfl

end MessageLens
