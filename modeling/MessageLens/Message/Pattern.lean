import MessageLens.Json.Value

/-!
# Message patterns

A message is stored as a text or as a pattern: a list of texts and of objects that stand for a text
or for a reference to a variable. A pattern is displayed with its references in braces.
-/

namespace MessageLens
set_option autoImplicit false

/-- Why a message file cannot be displayed: the type of a pattern part is itself a list or an
object. -/
inductive PatternError where
  | compositeType
  deriving DecidableEq, Repr

/-- The types of a pattern part that stand for a reference. -/
def referenceTypes : List String :=
  ["variable", "VariableReference", "variable-reference", "expression"]

/-- A text that is not empty. -/
def nonemptyText? : Option Json → Option String
  | some (.str s) => if s = "" then none else some s
  | _ => none

/-- The name a reference part displays: its own, that of its argument, or a question mark. -/
def referenceName (part : List (String × Json)) : String :=
  let argument := match Json.member? part "arg" with
    | some (.obj members) => Json.member? members "name"
    | other => other
  (nonemptyText? (Json.member? part "name") <|> nonemptyText? argument).getD "?"

/-- The display text of one part of a pattern. Parts of unknown type display nothing. -/
def partText : Json → Except PatternError String
  | .str s => .ok s
  | .obj part =>
    match Json.member? part "type", Json.given? part "value" with
    | some (.str "text"), some v => .ok v.text
    | some (.str type), _ =>
      .ok (if type ∈ referenceTypes then "\x7b" ++ referenceName part ++ "\x7d" else "")
    | some (.arr _), _ => .error .compositeType
    | some (.obj _), _ => .error .compositeType
    | _, _ => .ok ""
  | _ => .ok ""

/-- The display text of a pattern. A value that is neither a text nor a list is displayed
literally. -/
def patternText : Json → Except PatternError String
  | .arr parts => (parts.mapM partText).map String.join
  | v => .ok v.text

end MessageLens
