import MessageLens.Json.Value
import MessageLens.Number.Digits
import MessageLens.Text.Utf8

/-!
# Reading JSON

The grammar is the strict one: four kinds of white space, no raw control characters in texts, no
lone surrogate escapes, nothing after the value. Nesting is limited to 1024 levels, a number must
not overflow a double, and of several members of one name the first keeps its place and the last
gives the value.
-/

namespace MessageLens.Json
set_option autoImplicit false

/-- The deepest nesting of arrays and objects that is read. -/
def maxDepth : Nat := 1024

/-- A reader takes characters off the front of a text. -/
abbrev Reader (α : Type) := List Char → Option (α × List Char)

/-- The four characters that may stand between tokens. -/
def isSpace (c : Char) : Bool := c == ' ' || c == '\t' || c == '\r' || c == '\n'

/-- The text without white space at its front. -/
def skipSpace (cs : List Char) : List Char := cs.dropWhile isSpace

/-- Removes `word` from the front. -/
def expect (word : List Char) (cs : List Char) : Option (List Char) :=
  if word.isPrefixOf cs then some (cs.drop word.length) else none

/-- Reads `n` hexadecimal digits. -/
def hexNumber : (n : Nat) → Reader Nat
  | 0, cs => some (0, cs)
  | _ + 1, [] => none
  | n + 1, c :: cs => do
    let (rest, cs) ← hexNumber n cs
    if isHexDigit c then some (digitValue c * Nat.pow 16 n + rest, cs) else none

/-- The character of an escape of one letter. -/
def shortEscape? : Char → Option Char
  | '"' => some '"'
  | '\\' => some '\\'
  | '/' => some '/'
  | 'b' => some '\x08'
  | 'f' => some '\x0c'
  | 'n' => some '\n'
  | 'r' => some '\r'
  | 't' => some '\t'
  | _ => none

/-- Reads what follows `\u`: a code point, or the two halves of one. -/
def unicodeEscape : Reader Char := fun cs => do
  let (hi, cs) ← hexNumber 4 cs
  if hi < 0xD800 ∨ 0xDFFF < hi then return (Char.ofNat hi, cs)
  else if 0xDC00 ≤ hi then none
  else do
    let cs ← expect ['\\', 'u'] cs
    let (lo, cs) ← hexNumber 4 cs
    if 0xDC00 ≤ lo ∧ lo ≤ 0xDFFF then
      return (Char.ofNat (0x10000 + (hi - 0xD800) * 0x400 + (lo - 0xDC00)), cs)
    else none

/-- Reads the rest of a text up to its closing quote. Each turn takes a character or an escape, so
`fuel` need not exceed the length of the input. -/
def textBody : (fuel : Nat) → Reader (List Char)
  | 0, _ => none
  | _ + 1, [] => none
  | fuel + 1, c :: cs =>
    if c = '"' then some ([], cs)
    else if c.toNat < 0x20 then none
    else if c = '\\' then
      match cs with
      | [] => none
      | e :: cs' => do
        let (c, cs) ← if e = 'u' then unicodeEscape cs' else (shortEscape? e).map (·, cs')
        let (body, cs) ← textBody fuel cs
        return (c :: body, cs)
    else do
      let (body, cs) ← textBody fuel cs
      return (c :: body, cs)

/-- The value of a numeral with digits `whole` before and `fraction` after the point: an integer if
it has neither point nor exponent and fits in 64 bits. -/
def number? (negative : Bool) (whole : List Char) (fraction exponent : Option (List Char))
    (exponentNegative : Bool) : Option Json :=
  let asReal :=
    let digits := numberOfDigits 10 (whole ++ fraction.getD [])
    let e : Int := numberOfDigits 10 (exponent.getD [])
    let e := if exponentNegative then -e else e
    (Binary64.ofDecimal? negative digits (e - (fraction.getD []).length)).map real
  if fraction.isNone && exponent.isNone then
    let n : Int := numberOfDigits 10 whole
    let n := if negative then -n else n
    if -(signedBound : Int) ≤ n ∧ n < unsignedBound then some (int n) else asReal
  else asReal

/-- Reads a point and digits, if there is a point. -/
def fraction : Reader (Option (List Char))
  | '.' :: cs =>
    match cs.takeWhile Char.isDigit with
    | [] => none
    | ds => some (some ds, cs.dropWhile Char.isDigit)
  | cs => some (none, cs)

/-- Reads an exponent with its sign, if there is one. -/
def exponent : Reader (Option (List Char) × Bool)
  | c :: cs =>
    if c = 'e' ∨ c = 'E' then
      let (negative, cs) := match cs with
        | '-' :: cs => (true, cs)
        | '+' :: cs => (false, cs)
        | cs => (false, cs)
      match cs.takeWhile Char.isDigit with
      | [] => none
      | ds => some ((some ds, negative), cs.dropWhile Char.isDigit)
    else some ((none, false), c :: cs)
  | [] => some ((none, false), [])

/-- Reads a number. A zero at the front stands alone. -/
def number : Reader Json := fun cs => do
  let (negative, cs) := match cs with
    | '-' :: cs => (true, cs)
    | cs => (false, cs)
  let (whole, cs) ← match cs with
    | '0' :: cs => some (['0'], cs)
    | cs =>
      match cs.takeWhile Char.isDigit with
      | [] => none
      | ds => some (ds, cs.dropWhile Char.isDigit)
  let (frac, cs) ← fraction cs
  let ((exp, expNegative), cs) ← exponent cs
  let v ← number? negative whole frac exp expNegative
  return (v, cs)

mutual

/-- Reads a value and the white space before it; `depth` is the number of levels still open to
nesting. -/
def value : (fuel : Nat) → (depth : Nat) → Reader Json
  | 0, _, _ => none
  | fuel + 1, depth, cs =>
    match skipSpace cs with
    | '"' :: cs => (textBody (cs.length + 1) cs).map fun (s, cs) => (str (String.ofList s), cs)
    | '[' :: cs =>
      match depth, skipSpace cs with
      | 0, _ => none
      | _ + 1, ']' :: cs => some (arr [], cs)
      | d + 1, cs => (elements fuel d cs).map fun (vs, cs) => (arr vs, cs)
    | '\x7b' :: cs =>
      match depth, skipSpace cs with
      | 0, _ => none
      | _ + 1, '\x7d' :: cs => some (obj [], cs)
      | d + 1, cs => (members fuel d cs).map fun (ms, cs) => (obj (Table.ofList ms).entries, cs)
    | 't' :: cs => (expect "rue".toList cs).map (bool true, ·)
    | 'f' :: cs => (expect "alse".toList cs).map (bool false, ·)
    | 'n' :: cs => (expect "ull".toList cs).map (null, ·)
    | cs => number cs

/-- Reads the elements of an array up to its end, at least one. -/
def elements : (fuel : Nat) → (depth : Nat) → Reader (List Json)
  | 0, _, _ => none
  | fuel + 1, depth, cs => do
    let (v, cs) ← value fuel depth cs
    match skipSpace cs with
    | ',' :: cs => (elements fuel depth cs).map fun (vs, cs) => (v :: vs, cs)
    | ']' :: cs => some ([v], cs)
    | _ => none

/-- Reads the members of an object up to its end, at least one. -/
def members : (fuel : Nat) → (depth : Nat) → Reader (List (String × Json))
  | 0, _, _ => none
  | fuel + 1, depth, cs =>
    match skipSpace cs with
    | '"' :: cs => do
      let (name, cs) ← textBody (cs.length + 1) cs
      match skipSpace cs with
      | ':' :: cs => do
        let (v, cs) ← value fuel depth cs
        let m := (String.ofList name, v)
        match skipSpace cs with
        | ',' :: cs => (members fuel depth cs).map fun (ms, cs) => (m :: ms, cs)
        | '\x7d' :: cs => some ([m], cs)
        | _ => none
      | _ => none
    | _ => none

end

/-- The value of a JSON document. -/
def ofChars? (cs : List Char) : Option Json := do
  let (v, rest) ← value (2 * cs.length + 2) maxDepth cs
  if (skipSpace rest).isEmpty then some v else none

/-- The value of a JSON document given as bytes, which must be UTF-8. -/
def ofBytes? (bytes : Bytes) : Option Json := (Utf8.decode? bytes).bind ofChars?

end MessageLens.Json
