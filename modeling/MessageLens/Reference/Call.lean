/-!
# Where a call closes

Inside the arguments of a call only parentheses and quoted strings count. A quoted string is skipped
as a unit: it runs from its quote to the next quote of the same kind that no backslash precedes.
-/

namespace MessageLens
set_option autoImplicit false

/-- The three kinds of quote that open a string in the arguments of a call. -/
def isStringQuote (c : Char) : Bool := c == '"' || c == '\'' || c == '\x60'

/-- The position at which a call closes. `depth` counts the open parentheses besides the one to be
closed, `quote` is the quote of the string being skipped, `last` the character before and `pos` the
position of the next one. -/
def closingFrom : (depth : Nat) → (quote : Option Char) → (last : Char) → (pos : Nat) →
    List Char → Option Nat
  | _, _, _, _, [] => none
  | depth, some q, last, pos, c :: cs =>
    closingFrom depth (if c = q ∧ last ≠ '\\' then none else some q) c (pos + 1) cs
  | depth, none, _, pos, c :: cs =>
    if c = '(' then closingFrom (depth + 1) none c (pos + 1) cs
    else if c = ')' then
      match depth with
      | 0 => some pos
      | d + 1 => closingFrom d none c (pos + 1) cs
    else if isStringQuote c then closingFrom depth (some c) c (pos + 1) cs
    else closingFrom depth none c (pos + 1) cs

/-- The position of the parenthesis that closes the one at `openPos`, if the call closes on the
line. -/
def closingParen? (line : List Char) (openPos : Nat) : Option Nat :=
  closingFrom 0 none '(' (openPos + 1) (line.drop (openPos + 1))

/-- The position of the parenthesis that closes the one at an offset. A negative offset counts from
the end of the line, and the search goes on at the front; an offset before the line has no answer at
all. -/
def closingOffset? (line : List Char) (offset : Int) : Option (Option Int) :=
  let first := offset + 1
  let n : Int := line.length
  if n ≤ first then some none
  else if first < -n then none
  else
    let text := if first < 0 then line.drop (n + first).toNat ++ line else line.drop first.toNat
    some ((closingFrom 0 none '(' 0 text).map fun k => first + k)

end MessageLens
