/-!
# Annotations

An annotation is the text drawn after a message reference, in styled segments. It is drawn inline
at a column, or at the end of its line.
-/

namespace MessageLens
set_option autoImplicit false

/-- Where an annotation is drawn. -/
inductive Placement where
  | inline
  | eol
  deriving DecidableEq, Repr, Inhabited

/-- The name of a placement. -/
def Placement.name : Placement → String
  | inline => "inline"
  | eol => "eol"

/-- What was found out about the key of a reference in the displayed locale. -/
inductive Status where
  | resolved
  | missingKey
  | missingLocale
  deriving DecidableEq, Repr, Inhabited

/-- The name of a status. -/
def Status.name : Status → String
  | resolved => "resolved"
  | missingKey => "missing_key"
  | missingLocale => "missing_locale"

/-- A stretch of text with the name of its style. -/
structure Segment where
  text : String
  style : String
  deriving DecidableEq, Repr, Inhabited

/-- The decoration of one message reference. -/
structure Annotation where
  line : Int
  column : Int
  placement : Placement := .inline
  segments : List Segment
  key : String
  status : Status
  /-- The locales that lack the key. -/
  missing : List String := []
  deriving DecidableEq, Repr, Inhabited

namespace Annotation

/-- The text of all segments. -/
def text (a : Annotation) : String := String.join (a.segments.map (·.text))

/-- The same annotation at the end of its line. -/
def atEndOfLine (a : Annotation) : Annotation := { a with column := 0, placement := .eol }

end Annotation

end MessageLens
