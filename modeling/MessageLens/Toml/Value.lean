import MessageLens.Options.Value

/-!
# TOML values

The values of a TOML document as far as options can tell them apart: dates and times are one kind,
and infinities and numbers that are none are another.
-/

namespace MessageLens
set_option autoImplicit false

/-- A TOML value. -/
inductive Toml where
  | flag (b : Bool)
  | int (n : Int)
  | real (x : Binary64)
  | nonFinite
  | text (s : String)
  | moment
  | array (elems : List Toml)
  | table (members : List (String × Toml))
  deriving Inhabited

namespace Toml

/-- The members of a table. -/
abbrev Members := List (String × Toml)

/-- Sets a member; one that is present keeps its place. -/
def setMember (key : String) (v : Toml) : Members → Members
  | [] => [(key, v)]
  | m :: rest => if m.1 = key then (key, v) :: rest else m :: setMember key v rest

/-- Changes the table at a path, which is created where it does not exist; an array of tables stands
for its last one. There is no result if something else is in the way. -/
def within (throughArrays : Bool) : (path : List String) → (Members → Option Members) →
    Members → Option Members
  | [], f, ms => f ms
  | k :: ks, f, ms => do
    match ms.lookup k with
    | none => return setMember k (table (← within throughArrays ks f [])) ms
    | some (table inner) => return setMember k (table (← within throughArrays ks f inner)) ms
    | some (array elems) =>
      match throughArrays, elems.getLast? with
      | true, some (table inner) =>
        let last := table (← within throughArrays ks f inner)
        return setMember k (array (elems.dropLast ++ [last])) ms
      | _, _ => none
    | some _ => none

mutual

/-- A TOML value given for an option. -/
def toOption : Toml → OptionValue
  | flag b => .flag b
  | int n => .int n
  | real x => .real x
  | nonFinite => .nonFinite
  | text s => .text s
  | table members => .table (toOptions members)
  | moment => .other
  | array _ => .other

/-- TOML members given for a group of options. -/
def toOptions : List (String × Toml) → List (String × OptionValue)
  | [] => []
  | (k, v) :: rest => (k, v.toOption) :: toOptions rest

end

end Toml

end MessageLens
