import MessageLens.Text.Blank

/-!
# Display text

A message is shown on one line: line feeds become spaces, carriage returns vanish, every run of
blanks becomes a single space and none is left at either end. Text longer than a limit is cut and
marked with an ellipsis that counts towards the limit.
-/

namespace MessageLens
set_option autoImplicit false

namespace Text

/-- What marks a cut. -/
def ellipsis : List Char := "...".toList

/-- Line feeds become spaces and carriage returns vanish. -/
def joinLines (cs : List Char) : List Char :=
  (cs.filter (· != '\r')).map fun c => if c = '\n' then ' ' else c

/-- Every run of blanks becomes one space; `inRun` says that a run has already been written. -/
def squeezeFrom : (inRun : Bool) → List Char → List Char
  | _, [] => []
  | inRun, c :: cs =>
    if isBlank c then
      if inRun then squeezeFrom true cs else ' ' :: squeezeFrom true cs
    else c :: squeezeFrom false cs

/-- Every run of blanks becomes one space. -/
def squeeze (cs : List Char) : List Char := squeezeFrom false cs

/-- A message on one trimmed line. -/
def normalize (cs : List Char) : List Char := trim (squeeze (joinLines cs))

/-- A message on one trimmed line, of at most `limit` characters where the ellipsis fits. -/
def truncate (cs : List Char) (limit : Int) : List Char :=
  let shown := normalize cs
  if limit < shown.length then shown.take (limit - ellipsis.length).toNat ++ ellipsis else shown

end Text

/-- The text of a message as it is displayed on one line. -/
def displayText (text : String) : String := String.ofList (Text.normalize text.toList)

/-- The displayed text, cut to `limit` characters. -/
def shortText (text : String) (limit : Int) : String :=
  String.ofList (Text.truncate text.toList limit)

end MessageLens
