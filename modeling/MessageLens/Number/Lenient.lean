import MessageLens.Number.Digits

/-!
# Integers read leniently

The text of an integer may have white space around it, a sign, zeros before its first digit that
counts, single underscores between digits, and a fraction of zeros. Each of these is taken off in
turn, and the integer that is left has nothing but a sign and its digits.

A minus sign is also found behind zeros, so that a text such as `00-5` reads as the integer after
them.
-/

namespace MessageLens
set_option autoImplicit false

/-- Why a text is read as no integer. -/
inductive IntegerFault where
  | malformed
  /-- There are more digits than an integer may have. -/
  | tooLong
  deriving DecidableEq, Repr, Inhabited

namespace Lenient

/-- What stands after zeros, of which `last` is the last, or an underscore among them. Where no
digit follows, `last` stands for all of them. -/
def afterZeros? (last : Char) : List Char → Option (List Char)
  | [] => some [last]
  | c :: cs =>
    if c = '0' ∨ c = '_' then afterZeros? c cs
    else if c.isDigit ∨ c = '-' then some (c :: cs)
    else if c = '.' then some (last :: c :: cs)
    else none

/-- A text from the first digit that counts on. -/
def significant? : List Char → Option (List Char)
  | [] => none
  | c :: cs =>
    if c = '0' then afterZeros? c cs
    else if c.isDigit ∨ c = '-' then some (c :: cs)
    else none

/-- Takes off a plus sign, and the zeros before the first digit that counts. -/
def unsigned? : List Char → Option (List Char)
  | '+' :: '-' :: _ => none
  | '+' :: cs => significant? cs
  | '-' :: cs => (significant? cs).map ('-' :: ·)
  | cs => significant? cs

/-- Takes off a fraction of zeros. -/
def withoutFraction (cs : List Char) : List Char :=
  match cs.dropWhile (· != '.') with
  | _ :: fraction =>
    if !fraction.isEmpty && fraction.all (· == '0') then cs.takeWhile (· != '.') else cs
  | [] => cs

/-- Whether two underscores stand next to each other. -/
def hasDoubleUnderscore : List Char → Bool
  | [] => false
  | c :: cs => (c == '_' && cs.head? == some '_') || hasDoubleUnderscore cs

/-- Takes off underscores, if all of them are single and none is at an end. -/
def withoutUnderscores (cs : List Char) : List Char :=
  if cs.head? = some '_' ∨ cs.getLast? = some '_' ∨ hasDoubleUnderscore cs then cs
  else cs.filter (· != '_')

/-- The most digits of an integer. -/
def maxDigits : Nat := 4300

/-- The natural number of digits that do not start with a zero, or of a zero alone. -/
def natural (cs : List Char) : Except IntegerFault Nat :=
  let ds := cs.takeWhile Char.isDigit
  match ds with
  | [] => .error .malformed
  | '0' :: _ => if cs = ['0'] then .ok 0 else .error .malformed
  | _ =>
    if maxDigits < ds.length then .error .tooLong
    else if ds.length = cs.length then .ok (numberOfDigits 10 ds)
    else .error .malformed

/-- The integer of a text that has nothing but a minus sign and digits. -/
def integer : List Char → Except IntegerFault Int
  | '-' :: cs => do return -((← natural cs : Nat) : Int)
  | cs => do return ((← natural cs : Nat) : Int)

end Lenient

/-- The integer that a text spells. -/
def lenientInteger (s : String) : Except IntegerFault Int :=
  match Lenient.unsigned? (unpadded s.toList) with
  | none => .error .malformed
  | some cs => Lenient.integer (Lenient.withoutUnderscores (Lenient.withoutFraction cs))

end MessageLens
