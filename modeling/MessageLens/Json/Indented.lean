import MessageLens.Json.Value

/-!
# JSON text on many lines

Every element and member stands on a line of its own, indented by two blanks for each value around
it. Texts keep all characters but the ones that must be escaped.
-/

namespace MessageLens.Json
set_option autoImplicit false

/-- The digits of a control character in an escape. -/
def escapeDigits (n : Nat) : List Char :=
  let digits := Nat.toDigits 16 n
  List.replicate (4 - digits.length) '0' ++ digits

/-- A character inside a JSON text. -/
def escapeChar (c : Char) : List Char :=
  match c with
  | '"' => ['\\', '"']
  | '\\' => ['\\', '\\']
  | '\x08' => ['\\', 'b']
  | '\t' => ['\\', 't']
  | '\n' => ['\\', 'n']
  | '\x0c' => ['\\', 'f']
  | '\r' => ['\\', 'r']
  | _ => if c.toNat < 0x20 then '\\' :: 'u' :: escapeDigits c.toNat else [c]

/-- A text as a JSON text. -/
def quotedText (s : String) : String :=
  String.ofList ('"' :: s.toList.flatMap escapeChar ++ ['"'])

/-- The end of a line and the indentation of the next. -/
def lineBreak (depth : Nat) : String := String.ofList ('\n' :: List.replicate (2 * depth) ' ')

/-- Items between brackets, each on a line of its own; none of them leaves the brackets as they
are. -/
def bracketed (depth : Nat) (opening closing : String) (items : List String) : String :=
  if items.isEmpty then opening ++ closing
  else
    opening ++ lineBreak (depth + 1) ++ ("," ++ lineBreak (depth + 1)).intercalate items ++
      lineBreak depth ++ closing

mutual

/-- The text of a value that has `depth` values around it. -/
def indentedAt (depth : Nat) : Json → String
  | null => "null"
  | bool b => if b then "true" else "false"
  | int n => toString n
  | real x => x.text
  | str s => quotedText s
  | arr elems => bracketed depth "[" "]" (indentedElems depth elems)
  | obj members => bracketed depth "\x7b" "\x7d" (indentedMembers depth members)

/-- The texts of the elements of an array. -/
def indentedElems (depth : Nat) : List Json → List String
  | [] => []
  | v :: vs => indentedAt (depth + 1) v :: indentedElems depth vs

/-- The texts of the members of an object. -/
def indentedMembers (depth : Nat) : List (String × Json) → List String
  | [] => []
  | (k, v) :: rest =>
    (quotedText k ++ ": " ++ indentedAt (depth + 1) v) :: indentedMembers depth rest

end

/-- The text of a value. -/
def indented (v : Json) : String := v.indentedAt 0

end MessageLens.Json
