import MessageLens.Number.Binary64
import MessageLens.Number.Digits

/-!
# Numbers as a user writes them

A number may have white space around it and a sign, and use the decimal digits of any script. Single
underscores may separate digits.
-/

namespace MessageLens
set_option autoImplicit false

/-- The digits zero of all scripts; the nine digits that follow each are its own. -/
def zeroDigits : List Nat :=
  [0x30, 0x660, 0x6F0, 0x7C0, 0x966, 0x9E6, 0xA66, 0xAE6, 0xB66, 0xBE6, 0xC66, 0xCE6, 0xD66, 0xDE6,
    0xE50, 0xED0, 0xF20, 0x1040, 0x1090, 0x17E0, 0x1810, 0x1946, 0x19D0, 0x1A80, 0x1A90, 0x1B50,
    0x1BB0, 0x1C40, 0x1C50, 0xA620, 0xA8D0, 0xA900, 0xA9D0, 0xA9F0, 0xAA50, 0xABF0, 0xFF10, 0x104A0,
    0x10D30, 0x11066, 0x110F0, 0x11136, 0x111D0, 0x112F0, 0x11450, 0x114D0, 0x11650, 0x116C0,
    0x11730, 0x118E0, 0x11950, 0x11C50, 0x11D50, 0x11DA0, 0x16A60, 0x16AC0, 0x16B50, 0x1D7CE,
    0x1D7D8, 0x1D7E2, 0x1D7EC, 0x1D7F6, 0x1E140, 0x1E2F0, 0x1E950, 0x1FBF0]

/-- The digit zero of the script that `c` is a decimal digit of. -/
def zeroOf? (c : Char) : Option Nat := zeroDigits.find? fun z => z ≤ c.toNat && c.toNat ≤ z + 9

/-- Whether `c` is a decimal digit of some script. -/
def isDecimalDigit (c : Char) : Bool := (zeroOf? c).isSome

/-- The ASCII digit of the same value; what is no digit stays. -/
def plainDigit (c : Char) : Char :=
  match zeroOf? c with
  | some z => Char.ofNat ('0'.toNat + (c.toNat - z))
  | none => c

/-- A text without the white space around it and with ASCII digits, as a sign and what follows
it. -/
def signedText (cs : List Char) : Bool × List Char :=
  match (unpadded cs).map plainDigit with
  | '-' :: rest => (true, rest)
  | '+' :: rest => (false, rest)
  | rest => (false, rest)

/-- The most digits of an integer. -/
def maxIntegerDigits : Nat := 4300

/-- The integer that a text denotes. -/
def integerOf? (cs : List Char) : Option Int :=
  let (negative, rest) := signedText cs
  match numeral? Char.isDigit rest with
  | some (ds, []) =>
    if maxIntegerDigits < ds.length then none
    else
      let n : Int := numberOfDigits 10 ds
      some (if negative then -n else n)
  | _ => none

/-- A number that may exceed every double or be none. -/
inductive ExtendedReal where
  | finite (x : Binary64)
  | infinite (negative : Bool)
  | undefined
  deriving DecidableEq, Repr, Inhabited

/-- The exponent at the end of a numeral; nothing stands for zero. -/
def exponentOf? : List Char → Option Int
  | [] => some 0
  | c :: cs =>
    if c.toLower ≠ 'e' then none
    else
      let (negative, rest) : Bool × List Char := match cs with
        | '-' :: rest => (true, rest)
        | '+' :: rest => (false, rest)
        | rest => (false, rest)
      match numeral? Char.isDigit rest with
      | some (ds, []) =>
        let n : Int := numberOfDigits 10 ds
        some (if negative then -n else n)
      | _ => none

/-- The number that a text denotes: digits with a point before, between or after them and an
exponent of ten, or one of the words for numbers that are not finite. -/
def realOf? (cs : List Char) : Option ExtendedReal :=
  let (negative, rest) := signedText cs
  let word := String.ofList (rest.map Char.toLower)
  if word = "inf" ∨ word = "infinity" then some (.infinite negative)
  else if word = "nan" then some .undefined
  else
    let (whole, rest) := (numeral? Char.isDigit rest).getD ([], rest)
    let (fraction, rest) : List Char × List Char := match rest with
      | '.' :: more => (numeral? Char.isDigit more).getD ([], more)
      | _ => ([], rest)
    if whole.isEmpty ∧ fraction.isEmpty then none
    else
      (exponentOf? rest).map fun e =>
        match Binary64.ofDecimal? negative (numberOfDigits 10 (whole ++ fraction))
            (e - fraction.length) with
        | some x => .finite x
        | none => .infinite negative

namespace ExtendedReal

/-- The number as the machine computes with it. -/
def toFloat : ExtendedReal → Float
  | finite x => x.toFloat
  | infinite negative => if negative then -1 / 0 else 1 / 0
  | undefined => 0 / 0

end ExtendedReal

end MessageLens
