import MessageLens.Text.Printable

/-!
# Quoted text

A text between quotes on one line, as log records and structured values show it: single quotes are
used unless the text holds a single quote and no double quote; the quote in use, backslashes and
characters that cannot be printed are escaped.
-/

namespace MessageLens
set_option autoImplicit false

namespace Text

/-- The digits of `n` in base sixteen, padded with zeros to `width`. -/
def hexDigits (width n : Nat) : List Char :=
  let digits := Nat.toDigits 16 n
  List.replicate (width - digits.length) '0' ++ digits

/-- The escape of a character by its code point, in the shortest of the three widths. -/
def escapeCode (c : Char) : List Char :=
  if c.toNat ≤ 0xFF then '\\' :: 'x' :: hexDigits 2 c.toNat
  else if c.toNat ≤ 0xFFFF then '\\' :: 'u' :: hexDigits 4 c.toNat
  else '\\' :: 'U' :: hexDigits 8 c.toNat

/-- One character between quotes of kind `quote`. -/
def quoteChar (quote c : Char) : List Char :=
  if c = quote ∨ c = '\\' then ['\\', c]
  else if c = '\n' then ['\\', 'n']
  else if c = '\r' then ['\\', 'r']
  else if c = '\t' then ['\\', 't']
  else if isPrintable c then [c]
  else escapeCode c

/-- The quote for a text: the double one only where it saves an escape. -/
def quoteFor (cs : List Char) : Char :=
  if cs.contains '\'' && !cs.contains '"' then '"' else '\''

end Text

/-- A text between quotes, on one line. -/
def quoted (text : String) : String :=
  let cs := text.toList
  let quote := Text.quoteFor cs
  String.ofList (quote :: cs.flatMap (Text.quoteChar quote) ++ [quote])

end MessageLens
