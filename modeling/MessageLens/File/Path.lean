/-!
# Paths

A path is a list of names below an anchor: the place it is read from, or the root of the file
system. Empty names and single dots are dropped; double dots are kept, since a link may stand before
them. Exactly two slashes at the front are a root of their own.
-/

namespace MessageLens
set_option autoImplicit false

/-- What the names of a path are relative to. -/
inductive Anchor where
  | relative
  | root
  | doubleRoot
  deriving DecidableEq, Repr, Inhabited

/-- The text of an anchor. -/
def Anchor.text : Anchor → String
  | relative => ""
  | root => "/"
  | doubleRoot => "//"

/-- A path of a file. -/
structure Path where
  anchor : Anchor := .relative
  parts : List String := []
  deriving DecidableEq, Repr, Inhabited

namespace Path

/-- The pieces of a text between slashes. -/
def splitSlashes : List Char → List (List Char)
  | [] => [[]]
  | c :: cs =>
    if c = '/' then [] :: splitSlashes cs
    else match splitSlashes cs with
      | [] => [[c]]
      | p :: ps => (c :: p) :: ps

/-- The path that a text denotes. -/
def parse (text : String) : Path :=
  let cs := text.toList
  let anchor := match (cs.takeWhile (· == '/')).length with
    | 0 => .relative
    | 2 => .doubleRoot
    | _ => .root
  let names := (splitSlashes cs).filter fun p => p ≠ [] ∧ p ≠ ['.']
  ⟨anchor, names.map String.ofList⟩

/-- The text of a path. -/
def text (p : Path) : String :=
  if p.anchor = .relative ∧ p.parts = [] then "." else p.anchor.text ++ "/".intercalate p.parts

/-- The path `q` read from `p`. -/
def join (p q : Path) : Path :=
  if q.anchor = .relative then ⟨p.anchor, p.parts ++ q.parts⟩ else q

/-- The path that the text of a link denotes. A slash or a single dot at its end asks for a
directory; a single dot as the last name stands for that. -/
def ofLinkText (text : String) : Path :=
  let p := parse text
  match (splitSlashes text.toList).getLast? with
  | some [] => ⟨p.anchor, p.parts ++ ["."]⟩
  | some ['.'] => ⟨p.anchor, p.parts ++ ["."]⟩
  | _ => p

/-- Names without dots; double dots take the name before them away. -/
def collapse (names : List String) : List String :=
  names.foldl (fun before name =>
    if name = ".." then before.dropLast else if name = "." then before else before ++ [name]) []

/-- A child of a directory. -/
def child (p : Path) (name : String) : Path := ⟨p.anchor, p.parts ++ [name]⟩

/-- The directory that holds a path; a root holds itself. -/
def parent (p : Path) : Path := ⟨p.anchor, p.parts.dropLast⟩

/-- The last name of a path. -/
def name (p : Path) : String := p.parts.getLast?.getD ""

/-- The last dot of a name and what follows it, unless the dot stands at either end. -/
def suffix (p : Path) : String :=
  let reversed := p.name.toList.reverse
  let extension := reversed.takeWhile (· != '.')
  let stem := (reversed.drop extension.length).drop 1
  if extension.isEmpty ∨ stem.isEmpty then "" else String.ofList ('.' :: extension.reverse)

/-- The names of a path with its anchor before them. -/
def components (p : Path) : List String :=
  if p.anchor = .relative then p.parts else p.anchor.text :: p.parts

/-- Whether one path comes before another or is the same, name by name. -/
def precedes (p q : Path) : Bool := !decide (q.components < p.components)

end Path

end MessageLens
