import MessageLens.Text.Blank

/-!
# Runs of digits

Numerals may have single underscores between their digits and white space around them.
-/

namespace MessageLens
set_option autoImplicit false

/-- White space around a numeral: the four ASCII separators do not count. -/
def isPadding (c : Char) : Bool := Text.isBlank c && !(0x1C ≤ c.toNat && c.toNat ≤ 0x1F)

/-- A text without the white space around it. -/
def unpadded (cs : List Char) : List Char :=
  ((cs.dropWhile isPadding).reverse.dropWhile isPadding).reverse

/-- The longest run at the front of a text of digits with single underscores between them, without
the underscores, and what follows it. -/
def digitRun (isDigit : Char → Bool) : List Char → List Char × List Char
  | [] => ([], [])
  | c :: cs =>
    if isDigit c then
      let (ds, rest) := digitRun isDigit cs
      (c :: ds, rest)
    else if c = '_' ∧ (cs.head?.any isDigit) then digitRun isDigit cs
    else ([], c :: cs)

/-- The longest numeral at the front of a text, which starts with a digit. -/
def numeral? (isDigit : Char → Bool) (cs : List Char) : Option (List Char × List Char) :=
  if cs.head?.any isDigit then some (digitRun isDigit cs) else none

/-- The value of a hexadecimal digit; the other digits are among them. -/
def digitValue (c : Char) : Nat :=
  if c.isDigit then c.toNat - '0'.toNat
  else if 'a' ≤ c ∧ c ≤ 'f' then c.toNat - 'a'.toNat + 10
  else c.toNat - 'A'.toNat + 10

/-- Whether `c` is a hexadecimal digit. -/
def isHexDigit (c : Char) : Bool :=
  c.isDigit || ('a' ≤ c && c ≤ 'f') || ('A' ≤ c && c ≤ 'F')

/-- The bound of 64-bit integers with a sign. -/
def signedBound : Nat := Nat.pow 2 63

/-- The bound of 64-bit integers without a sign. -/
def unsignedBound : Nat := Nat.pow 2 64

/-- The number that digits denote in a base. -/
def numberOfDigits (base : Nat) (ds : List Char) : Nat :=
  ds.foldl (fun n d => base * n + digitValue d) 0

end MessageLens
