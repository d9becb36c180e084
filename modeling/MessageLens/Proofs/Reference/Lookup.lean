import Mathlib.Data.List.Find
import MessageLens.Proofs.Reference.Spans

/-!
# Which reference a position belongs to

Calls nest: one may start inside the arguments of another, in either form, and then both cover the
place where it starts. A position belongs to the first reference listed that covers it, those in
dotted form being listed before those in brackets. No two references start at one place; so the
reference that the start of another belongs to is that one itself, or one in which it starts.
-/

namespace MessageLens
set_option autoImplicit false

open Text

variable {receiver text : String} {line column : Int} {l : List Char} {r q : Reference}

/-- A reference starts inside another one of its line, between its start and its end. -/
def Reference.StartsInside (r q : Reference) : Prop :=
  q.line = r.line ∧ q.colStart < r.colStart ∧ r.colStart ≤ q.colEnd

instance : DecidableRel Reference.StartsInside := fun _ _ => inferInstanceAs (Decidable (_ ∧ _))

/-- The reference that the start of another belongs to: the first of those listed before it in which
it starts, and itself if there is none. -/
def Reference.owner (r : Reference) (before : List Reference) : Reference :=
  (before.find? fun q => r.StartsInside q).getD r

theorem Reference.contains_iff :
    r.contains line column = true ↔ line = r.line ∧ r.colStart ≤ column ∧ column ≤ r.colEnd := by
  simp [contains, and_assoc]

/-- A reference is its own owner unless it starts inside one that is listed before it. -/
theorem Reference.owner_eq_self {before : List Reference} :
    r.owner before = r ↔ ∀ q ∈ before, ¬ r.StartsInside q := by
  unfold owner
  cases found : before.find? fun q => r.StartsInside q with
  | none => simpa using found
  | some q =>
    have inside : r.StartsInside q := by simpa using List.find?_some found
    refine iff_of_false ?_ fun outside => outside q (List.mem_of_find?_eq_some found) inside
    intro (same : q = r)
    rw [same] at inside
    exact Int.lt_irrefl _ inside.2.1

/-! ## Looking up a position -/

/-- Looking through one line is looking through all references, since the others are elsewhere. -/
theorem findReferences_find? (receiver text : String) (i : Nat) (column : Int) :
    (findReferences receiver text).find? (·.contains i column) =
      ((lines text.toList)[i]?).bind fun l =>
        (scanLine receiver i l).find? (·.contains i column) := by
  have only : ((findReferences receiver text).filter fun r : Reference => r.line = i).find?
      (·.contains i column) = (findReferences receiver text).find? (·.contains i column) := by
    rw [List.find?_filter]
    refine List.find?_congr fun r _ => ?_
    rw [Bool.eq_iff_iff, decide_eq_true_iff, decide_eq_true_iff]
    exact ⟨And.right, fun covers => ⟨(Reference.contains_iff.1 covers).1.symm, covers⟩⟩
  rw [← only, findReferences_filter]
  cases (lines text.toList)[i]? <;> rfl

/-- The key at a position is that of the first reference of the text that covers it. -/
theorem keyAt?_eq (receiver text : String) (line column : Int) :
    keyAt? receiver text line column =
      ((findReferences receiver text).find? (·.contains line column)).map (·.key) := by
  unfold keyAt?
  split
  · rename_i before
    have nothing : (findReferences receiver text).find? (·.contains line column) = none := by
      rw [List.find?_eq_none]
      intro r hr covers
      obtain ⟨i, -, -, place, -⟩ := findReferences_bounds r hr
      have here := (Reference.contains_iff.1 covers).1
      omega
    rw [nothing, Option.map_none]
  · rename_i reached
    obtain ⟨n, rfl⟩ := Int.eq_ofNat_of_zero_le (Int.not_lt.1 reached)
    rw [findReferences_find?, Option.map_bind]
    rfl

/-- The key at a position is that of the first reference listed that covers it; there is none
exactly if no reference does. -/
theorem keyAt_first_covering (receiver text : String) (line column : Int) :
    (∀ key : String, keyAt? receiver text line column = some key ↔
      ∃ before r after, findReferences receiver text = before ++ r :: after ∧
        r.contains line column = true ∧ r.key = key ∧
        ∀ q ∈ before, q.contains line column = false) ∧
    (keyAt? receiver text line column = none ↔
      ∀ r ∈ findReferences receiver text, r.contains line column = false) := by
  rw [keyAt?_eq]
  constructor
  · intro key
    simp only [Option.map_eq_some_iff, List.find?_eq_some_iff_append, Bool.not_eq_eq_eq_not,
      Bool.not_true]
    constructor
    · rintro ⟨r, ⟨covers, before, after, split, first⟩, named⟩
      exact ⟨before, r, after, split, covers, named, first⟩
    · rintro ⟨before, r, after, split, covers, named, first⟩
      exact ⟨r, ⟨covers, before, after, split, first⟩, named⟩
  · rw [Option.map_eq_none_iff, List.find?_eq_none]
    simp only [Bool.not_eq_true]

/-- At the start of a reference the key of its owner is found. -/
theorem keyAt?_start {before after : List Reference}
    (split : findReferences receiver text = before ++ r :: after) :
    keyAt? receiver text r.line r.colStart = some (r.owner before).key := by
  have mem : r ∈ findReferences receiver text := by simp [split]
  obtain ⟨-, -, -, -, -, span, -⟩ := findReferences_bounds r mem
  have own : r.contains r.line r.colStart = true :=
    Reference.contains_iff.2 ⟨rfl, Int.le_refl _, Int.le_of_lt span⟩
  have apart := findReferences_apart receiver text
  rw [split, List.pairwise_append] at apart
  have inside : before.find? (·.contains r.line r.colStart) =
      before.find? fun q => r.StartsInside q := by
    refine List.find?_congr fun q hq => ?_
    rw [Bool.eq_iff_iff, Reference.contains_iff, decide_eq_true_iff]
    constructor
    · rintro ⟨same, start, close⟩
      have differ := apart.2.2 q hq r List.mem_cons_self same.symm
      exact ⟨same.symm, by omega, close⟩
    · rintro ⟨same, start, close⟩
      exact ⟨same.symm, Int.le_of_lt start, close⟩
  rw [keyAt?_eq, split, List.find?_append, inside, Reference.owner]
  cases before.find? fun q => r.StartsInside q with
  | some q => rfl
  | none => rw [Option.none_or, List.find?_cons, own]; rfl

end MessageLens
