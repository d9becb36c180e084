/-!
# Tables

A finite map that remembers the order in which its keys were first set.
-/

namespace MessageLens
set_option autoImplicit false

variable {κ α : Type}

/-- Entries in the order of their keys' first appearance. -/
structure Table (κ α : Type) where
  entries : List (κ × α) := []
  deriving DecidableEq, Repr

namespace Table

instance : EmptyCollection (Table κ α) := ⟨{}⟩

instance : Inhabited (Table κ α) := ⟨∅⟩

/-- The keys in order. -/
def keys (t : Table κ α) : List κ := t.entries.map (·.1)

/-- The number of entries. -/
def size (t : Table κ α) : Nat := t.entries.length

/-- Whether there is no entry. -/
def isEmpty (t : Table κ α) : Bool := t.entries.isEmpty

variable [DecidableEq κ]

/-- The value of a key. -/
def get? (t : Table κ α) (k : κ) : Option α := t.entries.lookup k

/-- Whether a key has a value. -/
def contains (t : Table κ α) (k : κ) : Bool := (t.get? k).isSome

/-- Replaces the value of `k` where it stands, or appends the entry. -/
def setEntry (k : κ) (v : α) : List (κ × α) → List (κ × α)
  | [] => [(k, v)]
  | e :: rest => if e.1 = k then (k, v) :: rest else e :: setEntry k v rest

/-- Sets the value of a key; a key that is present keeps its place. -/
def set (t : Table κ α) (k : κ) (v : α) : Table κ α := ⟨setEntry k v t.entries⟩

/-- Removes a key. -/
def erase (t : Table κ α) (k : κ) : Table κ α := ⟨t.entries.filter (·.1 ≠ k)⟩

/-- Sets every entry of a list in turn. -/
def setAll (t : Table κ α) (entries : List (κ × α)) : Table κ α :=
  entries.foldl (fun t e => t.set e.1 e.2) t

/-- The table of a list of entries, the last value of a key winning. -/
def ofList (entries : List (κ × α)) : Table κ α := (∅ : Table κ α).setAll entries

/-- Sets every entry of another table in turn. -/
def update (t u : Table κ α) : Table κ α := t.setAll u.entries

end Table

end MessageLens
