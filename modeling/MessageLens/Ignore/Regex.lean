/-!
# Regular expressions

The expressions that ignore patterns are turned into, given as text: characters and escapes, a
period for any character but the line feed, sets with ranges, groups of alternatives, the
repetitions `*` and `?`, and the two anchors. An expression is searched for anywhere in a text.
-/

namespace MessageLens
set_option autoImplicit false

/-- A regular expression. -/
inductive Regex where
  | empty
  | char (c : Char)
  /-- Any character but the line feed. -/
  | any
  | set (negated : Bool) (ranges : List (Char × Char))
  | seq (r s : Regex)
  | alt (r s : Regex)
  | star (r : Regex)
  | opt (r : Regex)
  | start
  /-- The end of the text, or a line feed that ends it. -/
  | finish
  deriving Inhabited, Repr

namespace Regex

/-- Positions without repetition. -/
def distinct (ps : List Nat) : List Nat :=
  ps.foldr (fun p seen => if p ∈ seen then seen else p :: seen) []

/-- The positions reached from a front by any number of steps, of which at most `fuel` are taken;
`seen` are those reached before. -/
def reach (step : List Nat → List Nat) : (fuel : Nat) → (seen front : List Nat) → List Nat
  | 0, seen, _ => seen
  | fuel + 1, seen, front =>
    match (distinct front).filter (!seen.contains ·) with
    | [] => seen
    | p :: ps => reach step fuel (seen ++ p :: ps) (step (p :: ps))

/-- The positions after the characters of a text that satisfy a test and stand at one of the
positions. -/
def after (text : List Char) (test : Char → Bool) (ps : List Nat) : List Nat :=
  (ps.filter fun p => text[p]?.any test).map (· + 1)

/-- Where matches that start at one of the positions may end. Every step of a repetition that leads
on reaches a position not seen before, and a text has one position more than characters. -/
def ends (text : List Char) : Regex → List Nat → List Nat
  | empty, ps => ps
  | char c, ps => after text (· == c) ps
  | any, ps => after text (· != '\n') ps
  | set negated ranges, ps =>
    after text (fun c => (ranges.any fun r => r.1 ≤ c && c ≤ r.2) != negated) ps
  | seq r s, ps => ends text s (ends text r ps)
  | alt r s, ps => distinct (ends text r ps ++ ends text s ps)
  | star r, ps => reach (ends text r) (text.length + 2) [] ps
  | opt r, ps => distinct (ps ++ ends text r ps)
  | start, ps => ps.filter (· == 0)
  | finish, ps => ps.filter fun p => text.drop p = [] ∨ text.drop p = ['\n']

/-- Whether the expression matches somewhere in a text. -/
def search (r : Regex) (text : List Char) : Bool :=
  !(r.ends text (List.range (text.length + 1))).isEmpty

/-- Reads one character of a set: itself, or the one after a backslash. -/
def setChar : List Char → Option (Char × List Char)
  | '\\' :: c :: cs => some (c, cs)
  | '\\' :: [] => none
  | c :: cs => some (c, cs)
  | [] => none

/-- Reads the ranges of a set up to its closing bracket, which may stand first as itself. -/
def setRanges : (fuel : Nat) → (first : Bool) → List Char → Option (List (Char × Char) × List Char)
  | 0, _, _ => none
  | fuel + 1, first, cs =>
    match first, cs with
    | false, ']' :: cs => some ([], cs)
    | _, cs => do
      let (lo, cs) ← setChar cs
      match cs with
      | '-' :: ']' :: cs => some ([(lo, lo), ('-', '-')], cs)
      | '-' :: cs =>
        let (hi, cs) ← setChar cs
        if hi < lo then none
        else
          let (ranges, cs) ← setRanges fuel false cs
          return ((lo, hi) :: ranges, cs)
      | cs =>
        let (ranges, cs) ← setRanges fuel false cs
        return ((lo, lo) :: ranges, cs)

/-- Reads a set after its opening bracket. -/
def readSet (cs : List Char) : Option (Regex × List Char) :=
  let (negated, cs) := match cs with
    | '^' :: cs => (true, cs)
    | cs => (false, cs)
  (setRanges (cs.length + 1) true cs).map fun (ranges, cs) => (set negated ranges, cs)

/-- Applies the repetition at the front of a text to an expression. -/
def repeated (r : Regex) : List Char → Regex × List Char
  | '*' :: cs => (star r, cs)
  | '?' :: cs => (opt r, cs)
  | cs => (r, cs)

/-- Reads alternatives up to the end of the text or of the group; `left` is what has been read of
the current one. -/
def readAlternatives : (fuel : Nat) → (left : Regex) → List Char → Option (Regex × List Char)
  | 0, _, _ => none
  | _ + 1, left, [] => some (left, [])
  | fuel + 1, left, c :: cs =>
    match c with
    | ')' => some (left, ')' :: cs)
    | '|' => do
      let (right, cs) ← readAlternatives fuel empty cs
      return (alt left right, cs)
    | '(' => do
      let (inner, cs) ← readAlternatives fuel empty cs
      match cs with
      | ')' :: cs =>
        let (r, cs) := repeated inner cs
        readAlternatives fuel (seq left r) cs
      | _ => none
    | '[' => do
      let (inner, cs) ← readSet cs
      let (r, cs) := repeated inner cs
      readAlternatives fuel (seq left r) cs
    | '\\' =>
      match cs with
      | [] => none
      | d :: cs =>
        let (r, cs) := repeated (char d) cs
        readAlternatives fuel (seq left r) cs
    | '^' => readAlternatives fuel (seq left start) cs
    | '$' => readAlternatives fuel (seq left finish) cs
    | '*' => none
    | '?' => none
    | c =>
      let (r, cs) := repeated (if c = '.' then any else char c) cs
      readAlternatives fuel (seq left r) cs

/-- The expression that a text spells. -/
def parse? (cs : List Char) : Option Regex :=
  match readAlternatives (2 * cs.length + 2) empty cs with
  | some (r, []) => some r
  | _ => none

end Regex

end MessageLens
