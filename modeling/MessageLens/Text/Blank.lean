/-!
# White space

The code points that separate words of display text and may stand between the parts of a message
reference: the white space of the Unicode property together with the four ASCII separators.
-/

namespace MessageLens.Text
set_option autoImplicit false

/-- A set of code points given as closed ranges. -/
abbrev CodeRanges := List (Nat × Nat)

/-- Whether `c` lies in one of the ranges. -/
def CodeRanges.covers (ranges : CodeRanges) (c : Char) : Bool :=
  ranges.any fun r => r.1 ≤ c.toNat && c.toNat ≤ r.2

/-- The blank code points, in increasing order. -/
def blankRanges : CodeRanges :=
  [(0x09, 0x0D), (0x1C, 0x20), (0x85, 0x85), (0xA0, 0xA0), (0x1680, 0x1680), (0x2000, 0x200A),
    (0x2028, 0x2029), (0x202F, 0x202F), (0x205F, 0x205F), (0x3000, 0x3000)]

/-- White space as display text and references see it. -/
def isBlank (c : Char) : Bool := blankRanges.covers c

/-- `cs` without the blanks at its front. -/
def trimFront (cs : List Char) : List Char := cs.dropWhile isBlank

/-- `cs` without the blanks at its back. -/
def trimBack (cs : List Char) : List Char := (trimFront cs.reverse).reverse

/-- `cs` without the blanks at either end. -/
def trim (cs : List Char) : List Char := trimBack (trimFront cs)

end MessageLens.Text
