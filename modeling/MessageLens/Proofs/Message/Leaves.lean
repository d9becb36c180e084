import Mathlib
import MessageLens.Proofs.Message.Loading
import MessageLens.Proofs.Table

/-!
# The messages of a document

A document is a tree whose leaves are its messages. Flattening it comes to going through the leaves
in the order of the document and setting, for each, the key that its path spells to the text that
its pattern displays; what a group adds at once is what its leaves add one by one.
-/

namespace MessageLens
set_option autoImplicit false

variable {scope name : String} {members rest : List (String × Json)} {path : List String}

/-- A message of a document: the names of the members on the way to it, and its pattern. -/
structure Leaf where
  path : List String
  pattern : Json

namespace Leaf

/-- The same message in a group of that name. -/
def under (name : String) (leaf : Leaf) : Leaf := { leaf with path := name :: leaf.path }

/-- The key of a message in the group `scope`: that of each group on the way in turn. -/
def key (scope : String) (leaf : Leaf) : String := leaf.path.foldl scopedKey scope

/-- The key and the text that a message adds to the group `scope`. -/
def entry (scope : String) (leaf : Leaf) : Except PatternError (String × String) :=
  (patternText leaf.pattern).map fun text => (leaf.key scope, text)

end Leaf

/-- The pattern of a list of variants: its first element, if that is a text or has a value. -/
def variantPattern? : List Json → Option Json
  | .str s :: _ => some (.str s)
  | .obj first :: _ => Json.given? first "value"
  | _ => none

mutual

/-- The messages in a value: a text, a list whose first variant is a message, an object with a
value, and the messages among the members of every other object. -/
def leavesIn : Json → List Leaf
  | .str s => [⟨[], .str s⟩]
  | .arr variants => (variantPattern? variants).toList.map (⟨[], ·⟩)
  | .obj members =>
    match Json.given? members "value" with
    | some pattern => [⟨[], pattern⟩]
    | none => leavesOf members
  | _ => []

/-- The messages among some members, in their order. -/
def leavesOf : List (String × Json) → List Leaf
  | [] => []
  | (name, v) :: rest => (leavesIn v).map (Leaf.under name) ++ leavesOf rest

end

/-! ## Flattening sets the leaves in turn -/

theorem variantText?_eq (variants : List Json) :
    variantText? variants = (variantPattern? variants).elim (.ok none)
      fun pattern => (patternText pattern).map some := by
  unfold variantText? variantPattern?
  split
  · rename_i members _
    cases given : Json.given? members "value" <;> simp [given]
  · rfl
  · rename_i noObject noText
    split
    · exact (noText _ _ rfl).elim
    · exact (noObject _ _ rfl).elim
    · rfl

/-- What a member adds, and then the members behind it, is what all their leaves add. -/
theorem flattenMembers_step {α : Type} {x : Except PatternError α} {f : α → MessageTable}
    {table : MessageTable} {front : List Leaf}
    (step : x.map f = (front.mapM (Leaf.entry scope)).map table.setAll)
    (later : ∀ table : MessageTable, flattenMembers scope table rest =
      ((leavesOf rest).mapM (Leaf.entry scope)).map table.setAll) :
    (x >>= fun a => flattenMembers scope (f a) rest) =
      ((front ++ leavesOf rest).mapM (Leaf.entry scope)).map table.setAll := by
  have moved : (x >>= fun a => flattenMembers scope (f a) rest) =
      x.map f >>= fun table => flattenMembers scope table rest := by
    cases x <;> rfl
  rw [moved, step, List.mapM_append]
  cases front.mapM (Leaf.entry scope) with
  | error e => rfl
  | ok first =>
    change flattenMembers scope (table.setAll first) rest = _
    rw [later]
    cases (leavesOf rest).mapM (Leaf.entry scope) with
    | error e => rfl
    | ok second => exact congrArg Except.ok (table.setAll_append first second).symm

theorem mapM_entry_single (pattern : Json) (table : MessageTable) :
    (patternText pattern).map (table.set (scopedKey scope name)) =
      ([⟨[name], pattern⟩].mapM (Leaf.entry scope)).map table.setAll := by
  rw [List.mapM_cons, List.mapM_nil, Leaf.entry]
  cases patternText pattern <;> rfl

/-- The leaves of a group add to the group around it what they add to the group, under its key. -/
theorem mapM_entry_under (name : String) (front : List Leaf) :
    (front.map (Leaf.under name)).mapM (Leaf.entry scope) =
      front.mapM (Leaf.entry (scopedKey scope name)) :=
  List.mapM_map

theorem flattenMembers_eq (scope : String) (table : MessageTable) (members : List (String × Json)) :
    flattenMembers scope table members =
      ((leavesOf members).mapM (Leaf.entry scope)).map table.setAll := by
  induction scope, table, members using flattenMembers.induct with
  | case1 =>
    rw [flattenMembers, leavesOf]
    rfl
  | case2 scope table name rest s later =>
    simp only [flattenMembers, leavesOf, leavesIn]
    exact flattenMembers_step (x := .ok s) (mapM_entry_single (.str s) table) later
  | case3 scope table name rest variants later =>
    simp only [flattenMembers, leavesOf, leavesIn, variantText?_eq]
    cases variantPattern? variants with
    | none => exact flattenMembers_step (x := .ok ()) (f := fun _ => table) rfl later
    | some pattern =>
      refine Eq.trans ?_ (flattenMembers_step (mapM_entry_single pattern table) later)
      rw [Option.elim_some]
      cases patternText pattern <;> rfl
  | case4 scope table name rest members pattern given later =>
    simp only [flattenMembers, leavesOf, leavesIn, given]
    exact flattenMembers_step (mapM_entry_single pattern table) later
  | case5 scope table name rest key members bare later inner =>
    simp only [flattenMembers, leavesOf, leavesIn, bare]
    refine flattenMembers_step (f := table.update) ?_ later
    rw [mapM_entry_under, inner]
    cases (leavesOf members).mapM (Leaf.entry key) with
    | error e => rfl
    | ok entries => exact congrArg Except.ok (table.update_ofList entries)
  | case6 scope table name v rest noText noList noObject later =>
    have none : leavesIn v = [] := by
      rw [leavesIn]
      · exact noText
      · exact noList
      · exact noObject
    rw [flattenMembers, leavesOf, none]
    · exact flattenMembers_step (x := .ok ()) (f := fun _ => table) rfl later
    · exact noText
    · exact noList
    · exact noObject

theorem flatten_eq (scope : String) (members : List (String × Json)) :
    flatten (.obj members) scope =
      ((leavesOf members).mapM (Leaf.entry scope)).map Table.ofList :=
  flattenMembers_eq scope ∅ members

/-! ## Keys -/

/-- A path has a name for the message itself. -/
theorem path_ne_nil {leaf : Leaf} (mem : leaf ∈ leavesOf members) : leaf.path ≠ [] := by
  induction members with
  | nil => simp [leavesOf] at mem
  | cons member rest ih =>
    rw [leavesOf] at mem
    rcases List.mem_append.1 mem with here | later
    · obtain ⟨inner, -, rfl⟩ := List.mem_map.1 here
      exact List.cons_ne_nil _ _
    · exact ih later

/-- In a group that has a name, names are joined by dots. -/
theorem foldl_scopedKey (named : scope ≠ "") :
    path.foldl scopedKey scope = ".".intercalate (scope :: path) := by
  induction path generalizing scope with
  | nil => exact String.intercalate_singleton.symm
  | cons name path ih =>
    have named' : scope ++ "." ++ name ≠ "" := by simp [named]
    calc (name :: path).foldl scopedKey scope
        = path.foldl scopedKey (scope ++ "." ++ name) := by
          rw [List.foldl_cons, scopedKey, if_neg named]
      _ = ".".intercalate ((scope ++ "." ++ name) :: path) := ih named'
      _ = ".".intercalate (scope :: name :: path) := by
          rw [String.intercalate_cons_append, String.intercalate_cons_cons]

theorem Leaf.key_of_named {leaf : Leaf} (named : scope ≠ "") (located : leaf.path ≠ []) :
    leaf.key scope = scope ++ "." ++ ".".intercalate leaf.path := by
  rw [key, foldl_scopedKey named, String.intercalate_cons_of_ne_nil located]

/-! ## What is set -/

theorem forall₂_of_mapM {α β ε : Type} {f : α → Except ε β} {as : List α} {bs : List β}
    (run : as.mapM f = .ok bs) : List.Forall₂ (fun a b => f a = .ok b) as bs := by
  induction as generalizing bs with
  | nil =>
    cases run
    exact .nil
  | cons a as ih =>
    rw [List.mapM_cons] at run
    cases first : f a with
    | error e =>
      rw [first] at run
      cases run
    | ok b =>
      cases later : as.mapM f with
      | error e =>
        rw [first, later] at run
        cases run
      | ok bs' =>
        rw [first, later] at run
        cases run
        exact .cons first (ih later)

theorem Leaf.entry_ok {leaf : Leaf} {e : String × String} :
    leaf.entry scope = .ok e ↔ e.1 = leaf.key scope ∧ patternText leaf.pattern = .ok e.2 := by
  obtain ⟨key, text⟩ := e
  rw [entry]
  cases patternText leaf.pattern <;> simp [Except.map, eq_comm, and_comm]

/-- If no message is defective, all have a text. -/
theorem mapM_entry_ok (scope : String) (sound : ∀ member ∈ members, ¬ Defective member.2) :
    ∃ entries, (leavesOf members).mapM (Leaf.entry scope) = .ok entries := by
  cases run : (leavesOf members).mapM (Leaf.entry scope) with
  | ok entries => exact ⟨entries, rfl⟩
  | error e =>
    have failed : Fails (flattenMembers scope ∅ members) := by
      rw [flattenMembers_eq, run]
      exact fails_error
    obtain ⟨member, mem, defective⟩ := (flattenMembers_fails scope ∅ members).1 failed
    exact (sound member mem defective).elim

/-- Flattening a document inside a named group sets, for each of its messages in their order, the
key that the group and the names on the path spell to the text of its pattern; a key that is set
again has the last text. -/
theorem flatten_sets_leaves (named : scope ≠ "")
    (sound : ∀ member ∈ members, ¬ Defective member.2) :
    ∃ entries : List (String × String),
      List.Forall₂ (fun leaf e => e.1 = scope ++ "." ++ ".".intercalate leaf.path ∧
        patternText leaf.pattern = .ok e.2) (leavesOf members) entries ∧
      flatten (.obj members) scope = .ok (Table.ofList entries) ∧
      ∀ key, (Table.ofList entries).get? key = entries.reverse.lookup key := by
  obtain ⟨entries, run⟩ := mapM_entry_ok scope sound
  refine ⟨entries, ?_, by rw [flatten_eq, run]; rfl, Table.get?_ofList entries⟩
  have set := (List.forall₂_and_left _ _).2 ⟨fun leaf mem => path_ne_nil mem, forall₂_of_mapM run⟩
  refine set.imp fun leaf e ⟨located, entered⟩ => ?_
  rw [← Leaf.key_of_named named located]
  exact Leaf.entry_ok.1 entered

/-- Members of which two messages on different paths have the same key. -/
def sameKeyMembers : List (String × Json) :=
  [("a", .obj [("b.c", .str "early"), ("n", .null)]),
    ("a.b", .obj [("c", .arr [.obj [("value", .str "late")]])])]

theorem sameKeyMembers_sound : ∀ member ∈ sameKeyMembers, ¬ Defective member.2 := by
  intro member mem defective
  have failed := (flattenMembers_fails "" ∅ sameKeyMembers).2 ⟨member, mem, defective⟩
  rw [flattenMembers_eq] at failed
  exact not_fails_ok failed

/-- The message that comes later in the document has the key. -/
theorem flatten_sets_leaves_sameKey :
    "app" ≠ "" ∧ (∀ member ∈ sameKeyMembers, ¬ Defective member.2) ∧
    ∃ table, flatten (.obj sameKeyMembers) "app" = .ok table ∧
      table.get? "app.a.b.c" = some "late" := by
  refine ⟨by decide, sameKeyMembers_sound, ?_⟩
  obtain ⟨entries, set, flattened, found⟩ :=
    flatten_sets_leaves (by decide : "app" ≠ "") sameKeyMembers_sound
  refine ⟨_, flattened, ?_⟩
  have walk : leavesOf sameKeyMembers =
      [⟨["a", "b.c"], .str "early"⟩, ⟨["a.b", "c"], .str "late"⟩] := rfl
  rw [walk] at set
  obtain - | ⟨-, - | ⟨⟨secondKey, secondText⟩, - | _⟩⟩ := set
  have key : _ = "app.a.b.c" := secondKey.trans (by decide)
  have text : "late" = _ := Except.ok.inj secondText
  rw [found, List.reverse_cons, List.reverse_singleton, List.singleton_append,
    Table.lookup_cons_eq, if_pos key.symm, ← text]

end MessageLens
