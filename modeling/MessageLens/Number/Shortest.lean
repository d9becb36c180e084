import MessageLens.Number.Binary64

/-!
# The shortest decimal of a double

Among the decimals that read back as a given double, the ones with the fewest digits are those on
the coarsest decimal grid that has a point in the double's interval; of them the nearest is chosen.
-/

namespace MessageLens.Binary64
set_option autoImplicit false

/-- The decimal `digits * 10 ^ exponent`. -/
structure Decimal where
  digits : Nat
  exponent : Int
  deriving DecidableEq, Repr

/-- The multiples of a common unit that a double and the ends of its interval are: the unit is
`2 ^ (exponent - 2)`. The interval below a power of two is half as wide. -/
structure Interval where
  low : Nat
  value : Nat
  high : Nat
  closed : Bool

/-- The reals that round to a positive double. -/
def interval (x : Binary64) : Interval :=
  let m := 4 * x.mantissa
  let below := if x.mantissa = hiddenBit ∧ minExponent < x.exponent then 1 else 2
  ⟨m - below, m, m + 2, x.mantissa % 2 == 0⟩

/-- The natural numbers `a`, `b` with `a / b = 2 ^ e2 / 10 ^ e10`. -/
def powerRatio (e2 e10 : Int) : Nat × Nat :=
  (Nat.pow 2 e2.toNat * Nat.pow 10 (-e10).toNat, Nat.pow 2 (-e2).toNat * Nat.pow 10 e10.toNat)

/-- The point of the grid `10 ^ e10` that reads back as the double and is nearest to it. A tie goes
to the even point. -/
def gridPoint? (x : Binary64) (e10 : Int) : Option Nat :=
  let i := x.interval
  let (a, b) := powerRatio (x.exponent - 2) e10
  let inside (c : Nat) : Bool :=
    if i.closed then i.low * a ≤ c * b && c * b ≤ i.high * a
    else i.low * a < c * b && c * b < i.high * a
  let c := i.value * a / b
  let r := i.value * a % b
  let preferUp := b < 2 * r || (b == 2 * r && c % 2 == 1)
  match inside c, inside (c + 1) with
  | true, true => some (if preferUp then c + 1 else c)
  | true, false => some c
  | false, true => some (c + 1)
  | false, false => none

/-- The first grid from `10 ^ top` downwards with a point for the double. -/
def shortestFrom (x : Binary64) : (tries : Nat) → (top : Int) → Decimal
  | 0, top => ⟨0, top⟩
  | n + 1, top =>
    match x.gridPoint? top with
    | some c => ⟨c, top⟩
    | none => shortestFrom x n (top - 1)

/-- An exponent of ten above that of a positive double, by at most two. -/
def topExponent (x : Binary64) : Int :=
  ((Nat.log2 x.mantissa : Int) + x.exponent + 1) * 30103 / 100000 + 1

/-- The shortest decimal that reads back as a double other than zero. -/
def shortest (x : Binary64) : Decimal := x.shortestFrom 20 x.topExponent

/-- The digits of a decimal without zeros at the end, and the exponent that goes with them. -/
def Decimal.trimmed (d : Decimal) : List Char × Int :=
  let digits := Nat.toDigits 10 d.digits
  let kept := (digits.reverse.dropWhile (· == '0')).reverse
  (kept, d.exponent + (digits.length - kept.length : Nat))

/-- How a double is written. -/
structure Style where
  /-- The least exponent of ten written positionally. -/
  lowest : Int
  /-- The least exponent of ten written with an exponent again. -/
  highest : Int
  /-- The least number of digits of an exponent. -/
  exponentDigits : Nat

/-- Decimal exponents from -4 to 15 are written positionally, the others with a sign and two digits
at least. -/
def plainStyle : Style := ⟨-4, 16, 2⟩

/-- The digits of an exponent with its sign. -/
def Style.exponentText (style : Style) (e : Int) : List Char :=
  let digits := Nat.toDigits 10 e.natAbs
  let zeros := List.replicate (style.exponentDigits - digits.length) '0'
  (if e < 0 then '-' else '+') :: zeros ++ digits

/-- Digits with a point before the last `-e` of them, and at least one digit on either side. -/
def positional (digits : List Char) (e : Int) : List Char :=
  if 0 ≤ e then digits ++ List.replicate e.toNat '0' ++ ['.', '0']
  else
    let places := (-e).toNat
    let padded := List.replicate (places + 1 - digits.length) '0' ++ digits
    padded.take (padded.length - places) ++ '.' :: padded.drop (padded.length - places)

/-- The text of a positive double. -/
def Style.magnitude (style : Style) (x : Binary64) : List Char :=
  let (digits, e) := x.shortest.trimmed
  let lead := e + digits.length - 1
  if style.lowest ≤ lead ∧ lead < style.highest then positional digits e
  else
    match digits with
    | [] => []
    | d :: [] => d :: 'e' :: style.exponentText lead
    | d :: ds => d :: '.' :: ds ++ 'e' :: style.exponentText lead

/-- The text of a double. -/
def text (x : Binary64) : String :=
  let body := if x.mantissa = 0 then ['0', '.', '0'] else plainStyle.magnitude x
  String.ofList (if x.negative then '-' :: body else body)

end MessageLens.Binary64
