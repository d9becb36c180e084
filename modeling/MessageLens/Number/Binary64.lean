/-!
# Doubles as exact numbers

A finite double is a sign, a mantissa and a power of two. Decimal numerals are rounded to the
nearest double, a tie going to the even mantissa; the printed form has the fewest digits that read
back as the same double.
-/

namespace MessageLens
set_option autoImplicit false

/-- The number `± mantissa * 2 ^ exponent`. The mantissa of a normal double has 53 bits; that of a
smaller one goes with the least exponent. -/
structure Binary64 where
  negative : Bool
  mantissa : Nat
  exponent : Int
  deriving DecidableEq, Repr, Inhabited

namespace Binary64

/-- The least exponent of two. -/
def minExponent : Int := -1074

/-- The greatest exponent of two. -/
def maxExponent : Int := 971

/-- The least mantissa of a normal double. -/
def hiddenBit : Nat := Nat.pow 2 52

/-- `num / den` to the nearest natural number, a tie going to the even one. -/
def roundDiv (num den : Nat) : Nat :=
  let q := num / den
  let r := num % den
  if 2 * r < den then q else if den < 2 * r then q + 1 else q + q % 2

/-- `num / den * 2 ^ (-e)` as a quotient. -/
def scaleTwo (num den : Nat) (e : Int) : Nat × Nat :=
  if e < 0 then (num * Nat.pow 2 (-e).toNat, den) else (num, den * Nat.pow 2 e.toNat)

/-- The exponent at which `num / den` has a mantissa of 53 bits, or the least one. -/
def exponentOf (num den : Nat) : Int :=
  let guess := max ((Nat.log2 num : Int) - Nat.log2 den - 52) minExponent
  let (n, d) := scaleTwo num den guess
  if n / d < hiddenBit then max (guess - 1) minExponent else guess

/-- The double nearest to `± num / den`, unless it is out of range. -/
def ofRatio? (negative : Bool) (num den : Nat) : Option Binary64 :=
  if num = 0 then some ⟨negative, 0, minExponent⟩
  else
    let e := exponentOf num den
    let (n, d) := scaleTwo num den e
    let m := roundDiv n d
    let (m, e) := if m = 2 * hiddenBit then (hiddenBit, e + 1) else (m, e)
    if maxExponent < e then none else some ⟨negative, m, e⟩

/-- The double nearest to `± digits * 10 ^ exp10`, unless it is out of range. -/
def ofDecimal? (negative : Bool) (digits : Nat) (exp10 : Int) : Option Binary64 :=
  let length : Int := (Nat.toDigits 10 digits).length
  if digits = 0 ∨ exp10 + length < -330 then some ⟨negative, 0, minExponent⟩
  else if 320 < exp10 + length then none
  else if exp10 < 0 then ofRatio? negative digits (Nat.pow 10 (-exp10).toNat)
  else ofRatio? negative (digits * Nat.pow 10 exp10.toNat) 1

/-- The integer that a double is, if it is one. -/
def toInt? (x : Binary64) : Option Int :=
  let sign : Int := if x.negative then -1 else 1
  if 0 ≤ x.exponent then some (sign * (x.mantissa * Nat.pow 2 x.exponent.toNat : Nat))
  else
    let d := Nat.pow 2 (-x.exponent).toNat
    if x.mantissa % d = 0 then some (sign * (x.mantissa / d : Nat)) else none

/-- The double as the machine computes with it. -/
def toFloat (x : Binary64) : Float :=
  let biased := if x.mantissa < hiddenBit then 0 else (x.exponent - minExponent).toNat + 1
  let sign := if x.negative then Nat.pow 2 63 else 0
  Float.ofBits (UInt64.ofNat (sign + biased * hiddenBit + x.mantissa % hiddenBit))

end Binary64

end MessageLens
