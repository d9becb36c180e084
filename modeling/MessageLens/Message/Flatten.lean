import MessageLens.Message.Pattern

/-!
# Flattening message documents

A message document is an object whose members are messages or groups of messages. It is flattened
to a table from dotted keys to display texts. Of a list of variants only the first counts, and
values that are no messages are skipped.
-/

namespace MessageLens
set_option autoImplicit false

/-- Display texts by dotted key. -/
abbrev MessageTable := Table String String

/-- The dotted key of a member inside the group `scope`; the outermost group has no name. -/
def scopedKey (scope name : String) : String :=
  if scope = "" then name else scope ++ "." ++ name

/-- The text of a list of variants, if its first one is a message. -/
def variantText? : List Json → Except PatternError (Option String)
  | .obj members :: _ =>
    match Json.given? members "value" with
    | some v => (patternText v).map some
    | none => .ok none
  | .str s :: _ => .ok (some s)
  | _ => .ok none

/-- Adds the members of the group `scope` to a table. -/
def flattenMembers (scope : String) (table : MessageTable) :
    List (String × Json) → Except PatternError MessageTable
  | [] => .ok table
  | (name, v) :: rest => do
    let key := scopedKey scope name
    let table ← match v with
      | .str s => pure (table.set key s)
      | .arr variants =>
        match ← variantText? variants with
        | some s => pure (table.set key s)
        | none => pure table
      | .obj members =>
        match Json.given? members "value" with
        | some pattern => do pure (table.set key (← patternText pattern))
        | none => do pure (table.update (← flattenMembers key ∅ members))
      | _ => pure table
    flattenMembers scope table rest

/-- The table of a message document; a document that is no object has no messages. -/
def flatten (document : Json) (scope : String := "") : Except PatternError MessageTable :=
  match document with
  | .obj members => flattenMembers scope ∅ members
  | _ => .ok ∅

end MessageLens
