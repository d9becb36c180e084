import MessageLens.Table

/-!
# Looking up what was set

A table is seen through its lookups: setting or erasing a key changes the lookup of that key and of
no other.
-/

namespace MessageLens.Table
set_option autoImplicit false

variable {κ α : Type} [DecidableEq κ]

theorem lookup_cons_eq (e : κ × α) (rest : List (κ × α)) (k : κ) :
    (e :: rest).lookup k = if k = e.1 then some e.2 else rest.lookup k := by
  obtain ⟨k', v⟩ := e
  by_cases h : k = k'
  · rw [if_pos h, h, List.lookup_cons_self]
  · have differ : (k == k') = false := beq_eq_false_iff_ne.mpr h
    rw [if_neg h, List.lookup_cons, differ]

section Lists

variable {ι : Type} [BEq ι] [LawfulBEq ι] {entries : List (ι × α)} {k : ι} {v : α}

theorem mem_of_lookup (found : entries.lookup k = some v) : (k, v) ∈ entries := by
  obtain ⟨before, after, rfl, -⟩ := List.lookup_eq_some_iff.1 found
  exact List.mem_append_right _ List.mem_cons_self

/-- Where no key occurs twice, what a lookup finds is what stands at the key. -/
theorem lookup_eq_some_iff_mem (unique : (entries.map Prod.fst).Nodup) :
    entries.lookup k = some v ↔ (k, v) ∈ entries := by
  constructor
  · exact mem_of_lookup
  · intro mem
    obtain ⟨before, after, rfl⟩ := List.append_of_mem mem
    rw [List.map_append, List.map_cons] at unique
    have differ := (List.nodup_append.1 unique).2.2
    refine List.lookup_eq_some_iff.2 ⟨before, after, rfl, fun e earlier => ?_⟩
    exact bne_iff_ne.2
      (differ _ (List.mem_map_of_mem earlier) k List.mem_cons_self).symm

end Lists

theorem lookup_setEntry (entries : List (κ × α)) (k k' : κ) (v : α) :
    (setEntry k v entries).lookup k' = if k' = k then some v else entries.lookup k' := by
  induction entries with
  | nil => rw [setEntry, lookup_cons_eq]
  | cons e rest ih =>
    by_cases he : e.1 = k
    · rw [setEntry, if_pos he, lookup_cons_eq, lookup_cons_eq, he]
      by_cases h : k' = k <;> simp [h]
    · rw [setEntry, if_neg he, lookup_cons_eq, lookup_cons_eq, ih]
      by_cases h : k' = k
      · simp [h, Ne.symm he]
      · simp [h]

theorem get?_set (t : Table κ α) (k k' : κ) (v : α) :
    (t.set k v).get? k' = if k' = k then some v else t.get? k' :=
  lookup_setEntry t.entries k k' v

@[simp] theorem get?_set_self (t : Table κ α) (k : κ) (v : α) : (t.set k v).get? k = some v := by
  rw [get?_set, if_pos rfl]

theorem get?_set_ne (t : Table κ α) {k k' : κ} (h : k' ≠ k) (v : α) :
    (t.set k v).get? k' = t.get? k' := by
  rw [get?_set, if_neg h]

theorem lookup_filter_ne (entries : List (κ × α)) (k k' : κ) :
    (entries.filter (·.1 ≠ k)).lookup k' = if k' = k then none else entries.lookup k' := by
  induction entries with
  | nil => simp
  | cons e rest ih =>
    by_cases he : e.1 = k
    · rw [List.filter_cons_of_neg (by simpa using he), ih, lookup_cons_eq, he]
      by_cases h : k' = k <;> simp [h]
    · rw [List.filter_cons_of_pos (by simpa using he), lookup_cons_eq, lookup_cons_eq, ih]
      by_cases h : k' = k
      · simp [h, Ne.symm he]
      · simp [h]

theorem get?_erase (t : Table κ α) (k k' : κ) :
    (t.erase k).get? k' = if k' = k then none else t.get? k' :=
  lookup_filter_ne t.entries k k'

@[simp] theorem get?_erase_self (t : Table κ α) (k : κ) : (t.erase k).get? k = none := by
  rw [get?_erase, if_pos rfl]

/-- Setting a key to the value that it has changes nothing. -/
theorem set_get? {t : Table κ α} {k : κ} {v : α} (h : t.get? k = some v) : t.set k v = t := by
  obtain ⟨entries⟩ := t
  have same : setEntry k v entries = entries := by
    induction entries with
    | nil => cases h
    | cons e rest ih =>
      rw [get?, lookup_cons_eq] at h
      by_cases he : e.1 = k
      · rw [if_pos he.symm, Option.some.injEq] at h
        rw [setEntry, if_pos he, ← he, ← h]
      · rw [if_neg (Ne.symm he)] at h
        rw [setEntry, if_neg he, ih h]
  rw [set, same]

/-- Of two values set under one key in turn the second stays. -/
@[simp] theorem set_set (t : Table κ α) (k : κ) (v w : α) : (t.set k v).set k w = t.set k w := by
  obtain ⟨entries⟩ := t
  have same : setEntry k w (setEntry k v entries) = setEntry k w entries := by
    induction entries with
    | nil => simp [setEntry]
    | cons e rest ih =>
      by_cases he : e.1 = k
      · simp [setEntry, he]
      · simp [setEntry, he, ih]
  rw [set, set, same, set]

/-- Erasing a key undoes setting it, as far as other keys go. -/
@[simp] theorem erase_set (t : Table κ α) (k : κ) (v : α) : (t.set k v).erase k = t.erase k := by
  obtain ⟨entries⟩ := t
  have same : (setEntry k v entries).filter (·.1 ≠ k) = entries.filter (·.1 ≠ k) := by
    induction entries with
    | nil => simp [setEntry]
    | cons e rest ih =>
      by_cases he : e.1 = k
      · simp [setEntry, he]
      · rw [setEntry, if_neg he, List.filter_cons, List.filter_cons, ih]
  rw [set, erase, same, erase]

theorem contains_iff {t : Table κ α} {k : κ} : t.contains k = true ↔ ∃ v, t.get? k = some v :=
  Option.isSome_iff_exists

/-- Setting a key that is held already keeps the keys. -/
theorem contains_set_held {t : Table κ α} {k k' : κ} {v v' : α} (held : t.get? k = some v) :
    (t.set k v').contains k' = t.contains k' := by
  rw [contains, contains, get?_set]
  by_cases here : k' = k
  · rw [if_pos here, here, held]
    rfl
  · rw [if_neg here]

omit [DecidableEq κ] in
theorem isEmpty_iff {t : Table κ α} : t.isEmpty = true ↔ t = ∅ :=
  List.isEmpty_iff.trans ⟨congrArg mk, congrArg entries⟩

theorem mem_entries_of_get? {t : Table κ α} {k : κ} {v : α} (h : t.get? k = some v) :
    (k, v) ∈ t.entries :=
  mem_of_lookup h

/-! ## Setting many keys -/

theorem setAll_cons (t : Table κ α) (e : κ × α) (rest : List (κ × α)) :
    t.setAll (e :: rest) = (t.set e.1 e.2).setAll rest := rfl

theorem setAll_append (t : Table κ α) (first second : List (κ × α)) :
    t.setAll (first ++ second) = (t.setAll first).setAll second :=
  List.foldl_append

/-- Of the values set under a key in turn the last one stays. -/
theorem get?_setAll (t : Table κ α) (entries : List (κ × α)) (k : κ) :
    (t.setAll entries).get? k = (entries.reverse.lookup k).or (t.get? k) := by
  induction entries generalizing t with
  | nil => rfl
  | cons e rest ih =>
    rw [setAll_cons, ih, List.reverse_cons, List.lookup_append, Option.or_assoc, get?_set,
      lookup_cons_eq]
    by_cases here : k = e.1 <;> simp [here]

theorem get?_ofList (entries : List (κ × α)) (k : κ) :
    (ofList entries).get? k = entries.reverse.lookup k := by
  rw [ofList, get?_setAll]
  exact Option.or_none

/-- A key that is held keeps its place, so that it may as well be set before another key. -/
theorem set_comm {t : Table κ α} {k k' : κ} {v v' w : α} (apart : k' ≠ k)
    (held : t.get? k = some w) : (t.set k' v').set k v = (t.set k v).set k' v' := by
  obtain ⟨entries⟩ := t
  have same : setEntry k v (setEntry k' v' entries) = setEntry k' v' (setEntry k v entries) := by
    induction entries with
    | nil => cases held
    | cons e rest ih =>
      rw [get?, lookup_cons_eq] at held
      by_cases here : e.1 = k
      · have other : e.1 ≠ k' := by
          rw [here]
          exact apart.symm
        simp [setEntry, here, apart.symm]
      · rw [if_neg (Ne.symm here)] at held
        by_cases there : e.1 = k'
        · simp [setEntry, there, apart]
        · simp [setEntry, here, there, ih held]
  rw [set, set, same, set, set]

theorem setAll_set {t : Table κ α} {k : κ} {w : α} {entries : List (κ × α)}
    (absent : ∀ e ∈ entries, e.1 ≠ k) (held : t.get? k = some w) (v : α) :
    (t.set k v).setAll entries = (t.setAll entries).set k v := by
  induction entries generalizing t w with
  | nil => rfl
  | cons e rest ih =>
    have apart := absent e List.mem_cons_self
    have still : (t.set e.1 e.2).get? k = some w := by rw [get?_set_ne t apart.symm, held]
    rw [setAll_cons, setAll_cons, ← set_comm apart held,
      ih (fun e mem => absent e (List.mem_cons_of_mem _ mem)) still]

theorem mem_setEntry {entries : List (κ × α)} {k : κ} {v : α} {e : κ × α}
    (mem : e ∈ setEntry k v entries) : e.1 = k ∨ e ∈ entries := by
  induction entries with
  | nil =>
    obtain rfl := List.mem_singleton.1 mem
    exact .inl rfl
  | cons e' rest ih =>
    by_cases here : e'.1 = k
    · rw [setEntry, if_pos here] at mem
      rcases List.mem_cons.1 mem with rfl | mem
      · exact .inl rfl
      · exact .inr (List.mem_cons_of_mem _ mem)
    · rw [setEntry, if_neg here] at mem
      rcases List.mem_cons.1 mem with rfl | mem
      · exact .inr List.mem_cons_self
      · exact (ih mem).imp_right (List.mem_cons_of_mem _)

/-- Entries of which no two have the same key. -/
def Distinct (entries : List (κ × α)) : Prop := entries.Pairwise fun e e' => e'.1 ≠ e.1

theorem Distinct.setEntry {entries : List (κ × α)} (distinct : Distinct entries) (k : κ) (v : α) :
    Distinct (setEntry k v entries) := by
  induction distinct with
  | nil => exact List.pairwise_singleton _ _
  | @cons e rest apart tail ih =>
    by_cases here : e.1 = k
    · rw [Table.setEntry, if_pos here]
      refine List.pairwise_cons.2 ⟨fun e' mem => ?_, tail⟩
      rw [← here]
      exact apart e' mem
    · rw [Table.setEntry, if_neg here]
      refine List.pairwise_cons.2 ⟨fun e' mem => ?_, ih⟩
      rcases mem_setEntry mem with same | mem
      · rw [same]
        exact Ne.symm here
      · exact apart e' mem

theorem setAll_setEntry (t : Table κ α) {entries : List (κ × α)} (distinct : Distinct entries)
    (k : κ) (v : α) : t.setAll (setEntry k v entries) = (t.setAll entries).set k v := by
  induction distinct generalizing t with
  | nil => rfl
  | @cons e rest apart tail ih =>
    by_cases here : e.1 = k
    · subst here
      rw [setEntry, if_pos rfl, setAll_cons, setAll_cons,
        ← setAll_set apart (get?_set_self t e.1 e.2), set_set]
    · rw [setEntry, if_neg here, setAll_cons, setAll_cons, ih]

/-- To set what a table holds comes to the same as to set what the table has been made from. -/
theorem update_setAll (t : Table κ α) {u : Table κ α} (distinct : Distinct u.entries)
    (entries : List (κ × α)) : t.update (u.setAll entries) = (t.update u).setAll entries := by
  induction entries generalizing u with
  | nil => rfl
  | cons e rest ih =>
    have next : t.update (u.set e.1 e.2) = (t.update u).set e.1 e.2 :=
      setAll_setEntry t distinct e.1 e.2
    rw [setAll_cons, ih (u := u.set e.1 e.2) (distinct.setEntry e.1 e.2), next, setAll_cons]

theorem update_ofList (t : Table κ α) (entries : List (κ × α)) :
    t.update (ofList entries) = t.setAll entries :=
  update_setAll t .nil entries

/-! ## Renaming keys -/

/-- The table with `f` applied to every key. -/
def mapKeys (f : κ → κ) (t : Table κ α) : Table κ α := ⟨t.entries.map fun e => (f e.1, e.2)⟩

theorem mapKeys_set {f : κ → κ} (injective : ∀ k k', f k = f k' → k = k') (t : Table κ α) (k : κ)
    (v : α) : (t.set k v).mapKeys f = (t.mapKeys f).set (f k) v := by
  obtain ⟨entries⟩ := t
  have same : (setEntry k v entries).map (fun e => (f e.1, e.2)) =
      setEntry (f k) v (entries.map fun e => (f e.1, e.2)) := by
    induction entries with
    | nil => rfl
    | cons e rest ih =>
      by_cases here : e.1 = k
      · simp [setEntry, here]
      · have apart : f e.1 ≠ f k := fun same => here (injective _ _ same)
        simp [setEntry, here, apart, ih]
  rw [set, mapKeys, same, mapKeys, set]

theorem mapKeys_setAll {f : κ → κ} (injective : ∀ k k', f k = f k' → k = k') (t : Table κ α)
    (entries : List (κ × α)) :
    (t.setAll entries).mapKeys f = (t.mapKeys f).setAll (entries.map fun e => (f e.1, e.2)) := by
  induction entries generalizing t with
  | nil => rfl
  | cons e rest ih => rw [setAll_cons, ih, mapKeys_set injective, List.map_cons, setAll_cons]

theorem mapKeys_ofList {f : κ → κ} (injective : ∀ k k', f k = f k' → k = k')
    (entries : List (κ × α)) :
    (ofList entries).mapKeys f = ofList (entries.map fun e => (f e.1, e.2)) :=
  mapKeys_setAll injective ∅ entries

theorem contains_ofList {entries : List (κ × α)} {k : κ} :
    (ofList entries).contains k = true ↔ ∃ e ∈ entries, e.1 = k := by
  rw [contains, get?_ofList, Option.isSome_iff_ne_none, ne_eq, List.lookup_eq_none_iff]
  simp only [List.mem_reverse, bne_iff_ne, ne_eq, Classical.not_forall, Decidable.not_not,
    exists_prop]
  exact exists_congr fun e => and_congr_right fun _ => eq_comm

end MessageLens.Table
