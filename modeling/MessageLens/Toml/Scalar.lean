import MessageLens.Toml.Value

/-!
# Reading TOML scalars

Texts in their four forms, keys, numbers, dates and times.
-/

namespace MessageLens.Toml
set_option autoImplicit false

/-- Why a document cannot be read. -/
inductive ReadError where
  | malformed
  /-- A decimal integer of more than 4300 digits. -/
  | numberTooLong
  deriving DecidableEq, Repr

/-- A reader takes characters off the front of a document. -/
abbrev Reader (α : Type) := List Char → Except ReadError (α × List Char)

/-- Blanks within a line. -/
def isSpace (c : Char) : Bool := c == ' ' || c == '\t'

/-- Blanks within a line, and line ends. -/
def isSpaceOrNewline (c : Char) : Bool := isSpace c || c == '\n'

/-- Control characters other than the tab. -/
def isControl (c : Char) : Bool := (c.toNat < 0x20 && c != '\t') || c.toNat == 0x7F

/-- What may not stand raw in a text over several lines. -/
def isControlOrReturn (c : Char) : Bool := isControl c && c != '\n'

/-- Removes blanks within the line. -/
def skipSpace (cs : List Char) : List Char := cs.dropWhile isSpace

/-- Removes a comment up to the end of its line. -/
def skipComment : List Char → Except ReadError (List Char)
  | '#' :: cs =>
    if (cs.takeWhile (· != '\n')).any isControl then .error .malformed
    else .ok (cs.dropWhile (· != '\n'))
  | cs => .ok cs

/-- Characters of a key without quotes. -/
def isBareKeyChar (c : Char) : Bool := c.isAlphanum || c == '-' || c == '_'

/-- The text up to `mark`, which must come, without the characters of `illegal`. -/
def textUntil (mark : List Char) (illegal : Char → Bool) : Reader (List Char)
  | [] => .error .malformed
  | c :: cs =>
    if mark.isPrefixOf (c :: cs) then .ok ([], (c :: cs).drop mark.length)
    else if illegal c then .error .malformed
    else do
      let (body, rest) ← textUntil mark illegal cs
      return (c :: body, rest)

/-- The character of an escape of one letter. -/
def shortEscape? : Char → Option Char
  | 'b' => some '\x08'
  | 't' => some '\t'
  | 'n' => some '\n'
  | 'f' => some '\x0c'
  | 'r' => some '\r'
  | '"' => some '"'
  | '\\' => some '\\'
  | _ => none

/-- Reads the `width` digits of an escaped code point. -/
def escapedCode (width : Nat) : Reader Char := fun cs =>
  let ds := cs.take width
  let n := numberOfDigits 16 ds
  if ds.length = width ∧ ds.all isHexDigit ∧ n.isValidChar then .ok (Char.ofNat n, cs.drop width)
  else .error .malformed

/-- Reads what follows a backslash: a character, or nothing when the backslash ends a line. -/
def escape (multiline : Bool) : Reader (List Char)
  | [] => .error .malformed
  | e :: cs =>
    if multiline ∧ isSpaceOrNewline e then
      match skipSpace (e :: cs) with
      | [] => .ok ([], [])
      | '\n' :: cs => .ok ([], cs.dropWhile isSpaceOrNewline)
      | _ => .error .malformed
    else if e = 'u' then (escapedCode 4 cs).map fun (c, cs) => ([c], cs)
    else if e = 'U' then (escapedCode 8 cs).map fun (c, cs) => ([c], cs)
    else match shortEscape? e with
      | some c => .ok ([c], cs)
      | none => .error .malformed

/-- Reads the rest of a text with escapes up to its closing quotes. Each turn takes a character, so
`fuel` need not exceed the length of the input. -/
def escapedText (multiline : Bool) : (fuel : Nat) → Reader (List Char)
  | 0, _ => .error .malformed
  | _ + 1, [] => .error .malformed
  | fuel + 1, c :: cs => do
    let closing := if multiline then "\"\"\"".toList else ['"']
    if closing.isPrefixOf (c :: cs) then return ([], (c :: cs).drop closing.length)
    else if c = '\\' then
      let (part, cs) ← escape multiline cs
      let (body, cs) ← escapedText multiline fuel cs
      return (part ++ body, cs)
    else if (if multiline then isControlOrReturn c else isControl c) then throw .malformed
    else
      let (body, cs) ← escapedText multiline fuel cs
      return (c :: body, cs)

/-- Reads at most two further quotes that belong to a text over several lines. -/
def extraQuotes (quote : Char) (cs : List Char) : List Char × List Char :=
  let extra := (cs.takeWhile (· == quote)).take 2
  (extra, cs.drop extra.length)

/-- Removes the line end right after the opening quotes of a text over several lines. -/
def dropNewline : List Char → List Char
  | '\n' :: cs => cs
  | cs => cs

/-- Reads a text over several lines after its opening quotes. -/
def multilineText (quote : Char) : Reader (List Char) := fun cs => do
  let cs := dropNewline cs
  let (body, cs) ← if quote = '"' then escapedText true (cs.length + 1) cs
    else textUntil (List.replicate 3 quote) isControlOrReturn cs
  let (extra, cs) := extraQuotes quote cs
  return (body ++ extra, cs)

/-- Reads a text on one line after its opening quote. -/
def lineText (quote : Char) : Reader (List Char) := fun cs =>
  if quote = '"' then escapedText false (cs.length + 1) cs else textUntil [quote] isControl cs

/-- Reads one part of a key. -/
def keyPart : Reader String
  | [] => .error .malformed
  | c :: cs =>
    if isBareKeyChar c then
      .ok (String.ofList ((c :: cs).takeWhile isBareKeyChar), (c :: cs).dropWhile isBareKeyChar)
    else if c = '"' ∨ c = '\'' then (lineText c cs).map fun (s, cs) => (String.ofList s, cs)
    else .error .malformed

/-- Reads the further parts of a dotted key, with the blanks around them. -/
def keyParts : (fuel : Nat) → Reader (List String)
  | 0, _ => .error .malformed
  | fuel + 1, cs =>
    match skipSpace cs with
    | '.' :: cs => do
      let (part, cs) ← keyPart (skipSpace cs)
      let (parts, cs) ← keyParts fuel cs
      return (part :: parts, cs)
    | cs => .ok ([], cs)

/-- Reads a dotted key and the blanks after it. -/
def key : Reader (List String) := fun cs => do
  let (part, cs) ← keyPart cs
  let (parts, cs) ← keyParts (cs.length + 1) cs
  return (part :: parts, cs)

/-- Reads exactly `n` decimal digits. -/
def digits? (n : Nat) (cs : List Char) : Option (Nat × List Char) :=
  let ds := cs.take n
  if ds.length = n ∧ ds.all Char.isDigit then some (numberOfDigits 10 ds, cs.drop n) else none

/-- Removes a character from the front. -/
def char? (c : Char) : List Char → Option (List Char)
  | d :: cs => if c = d then some cs else none
  | [] => none

/-- Removes the decimal digits of a number in a range, two of them, from the front. -/
def twoDigits? (least most : Nat) (cs : List Char) : Option (Nat × List Char) := do
  let (n, cs) ← digits? 2 cs
  if least ≤ n ∧ n ≤ most then some (n, cs) else none

/-- Removes a time of day from the front, with its fraction of a second. -/
def time? (cs : List Char) : Option (List Char) := do
  let (_, cs) ← twoDigits? 0 23 cs
  let cs ← char? ':' cs
  let (_, cs) ← twoDigits? 0 59 cs
  let cs ← char? ':' cs
  let (_, cs) ← twoDigits? 0 59 cs
  match cs with
  | '.' :: rest =>
    if rest.head?.any Char.isDigit then some (rest.dropWhile Char.isDigit) else some cs
  | _ => some cs

/-- Removes an offset from the front, if there is one. -/
def dropOffset (cs : List Char) : List Char :=
  let offset? : Option (List Char) := do
    match cs with
    | [] => none
    | c :: rest =>
      if c = 'Z' ∨ c = 'z' then some rest
      else if c = '+' ∨ c = '-' then
        let (_, rest) ← twoDigits? 0 23 rest
        let rest ← char? ':' rest
        let (_, rest) ← twoDigits? 0 59 rest
        some rest
      else none
  offset?.getD cs

/-- The number of days of a month. -/
def daysInMonth (year month : Nat) : Nat :=
  if month = 2 then
    if year % 4 = 0 ∧ (year % 100 ≠ 0 ∨ year % 400 = 0) then 29 else 28
  else if month ∈ [4, 6, 9, 11] then 30
  else 31

/-- Removes a date from the front; `false` when the calendar has no such day. -/
def date? (cs : List Char) : Option (Bool × List Char) := do
  let (year, cs) ← digits? 4 cs
  let cs ← char? '-' cs
  let (month, cs) ← twoDigits? 1 12 cs
  let cs ← char? '-' cs
  let (day, cs) ← twoDigits? 1 31 cs
  return (1 ≤ year && day ≤ daysInMonth year month, cs)

/-- Reads a date with or without a time, or a time alone, if one stands at the front. -/
def moment? (cs : List Char) : Option (Except ReadError (List Char)) :=
  match date? cs with
  | some (exists', rest) =>
    let rest := match rest with
      | c :: after =>
        if c = 'T' ∨ c = 't' ∨ c = ' ' then
          match time? after with
          | some after => dropOffset after
          | none => rest
        else rest
      | [] => rest
    some (if exists' then .ok rest else .error .malformed)
  | none => (time? cs).map .ok

/-- The longest decimal integer that is read. -/
def maxDigits : Nat := 4300

/-- Removes a mark and a numeral from the front. -/
def markedNumeral? (marks : List Char) : List Char → Option (List Char × List Char)
  | c :: cs => if c ∈ marks then numeral? Char.isDigit cs else none
  | [] => none

/-- Reads an integer in base two, eight or sixteen, if one stands at the front. -/
def radixInteger? : List Char → Option (Int × List Char)
  | '0' :: mark :: cs =>
    let base? : Option (Nat × (Char → Bool)) := match mark with
      | 'x' => some (16, isHexDigit)
      | 'o' => some (8, fun c => '0' ≤ c && c ≤ '7')
      | 'b' => some (2, fun c => c == '0' || c == '1')
      | _ => none
    do
      let (base, isDigit) ← base?
      let (ds, rest) ← numeral? isDigit cs
      return ((numberOfDigits base ds : Nat), rest)
  | _ => none

/-- Splits a sign off the front. -/
def sign : List Char → Bool × List Char
  | '-' :: cs => (true, cs)
  | '+' :: cs => (false, cs)
  | cs => (false, cs)

/-- Reads the exponent of a number, if one stands at the front: whether it is negative, its digits,
and what follows. -/
def exponent? : List Char → Option (Bool × List Char × List Char)
  | c :: cs =>
    if c = 'e' ∨ c = 'E' then
      let (negative, cs) := sign cs
      (numeral? Char.isDigit cs).map fun (ds, rest) => (negative, ds, rest)
    else none
  | [] => none

/-- Reads a decimal number, if one stands at the front. A zero at the front stands alone. -/
def decimalNumber? (cs : List Char) : Option (Except ReadError (Toml × List Char)) := do
  let (negative, cs) := sign cs
  let (whole, cs) ← match cs with
    | '0' :: cs => some (['0'], cs)
    | cs => numeral? Char.isDigit cs
  let fraction? := markedNumeral? ['.'] cs
  let (fraction, cs) := fraction?.getD ([], cs)
  let exp? := exponent? cs
  let (expNegative, expDigits, cs) := exp?.getD (false, [], cs)
  if fraction?.isNone ∧ exp?.isNone then
    let n : Int := numberOfDigits 10 whole
    return if maxDigits < whole.length then .error .numberTooLong
      else .ok (int (if negative then -n else n), cs)
  else
    let e : Int := numberOfDigits 10 expDigits
    let e := if expNegative then -e else e
    let x? := Binary64.ofDecimal? negative (numberOfDigits 10 (whole ++ fraction))
      (e - fraction.length)
    return .ok (x?.elim nonFinite real, cs)

/-- Reads one of the words for a number that is not finite, if one stands at the front. -/
def specialNumber? (cs : List Char) : Option (List Char) :=
  let (_, rest) := sign cs
  if rest.take 3 ∈ ["inf".toList, "nan".toList] then some (rest.drop 3) else none

/-- Reads a date, a time or a number. -/
def momentOrNumber : Reader Toml := fun cs =>
  match moment? cs with
  | some r => r.map (moment, ·)
  | none =>
    match radixInteger? cs with
    | some (n, cs) => .ok (int n, cs)
    | none =>
      match decimalNumber? cs with
      | some r => r
      | none =>
        match specialNumber? cs with
        | some cs => .ok (nonFinite, cs)
        | none => .error .malformed

end MessageLens.Toml
