/-!
# Physical lines

A text is cut at line feeds only, so that line numbers agree with those of an editor; a carriage
return right before the cut belongs to the line end and is dropped.
-/

namespace MessageLens.Text
set_option autoImplicit false

/-- The pieces of a text between its line feeds: one more than there are line feeds. -/
def pieces : List Char → List (List Char)
  | [] => [[]]
  | c :: cs =>
    if c = '\n' then [] :: pieces cs
    else match pieces cs with
      | [] => [[c]]
      | p :: ps => (c :: p) :: ps

/-- A line without the carriage return that ends it, if one does. -/
def dropReturn (line : List Char) : List Char :=
  if line.getLast? = some '\r' then line.dropLast else line

/-- The physical lines of a text. -/
def lines (text : List Char) : List (List Char) := (pieces text).map dropReturn

/-- The text with every kind of line end turned into a line feed. -/
def unifyLineEnds : List Char → List Char
  | '\r' :: '\n' :: cs => '\n' :: unifyLineEnds cs
  | '\r' :: cs => '\n' :: unifyLineEnds cs
  | c :: cs => c :: unifyLineEnds cs
  | [] => []

end MessageLens.Text
