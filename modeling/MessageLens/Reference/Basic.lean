/-!
# Message references

A reference is a call such as `m.greeting(...)` or `m["greeting"](...)`: the key it names and the
span from the receiver to the parenthesis that closes the call. Lines and columns count from zero.
-/

namespace MessageLens
set_option autoImplicit false

/-- A located message reference; `colEnd` is the column of the closing parenthesis. -/
structure Reference where
  key : String
  line : Int
  colStart : Int
  colEnd : Int
  deriving DecidableEq, Repr, Inhabited

/-- The receiver that message functions are called on unless the options say otherwise. -/
def defaultReceiver : String := "m"

/-- Whether a position lies on the reference, both ends included. -/
def Reference.contains (r : Reference) (line column : Int) : Bool :=
  line == r.line && r.colStart ≤ column && column ≤ r.colEnd

/-- Characters that glue a receiver to the identifier before it. -/
def isWordChar (c : Char) : Bool := c.isAlphanum || c == '_'

/-- Characters that may start a key in dotted form. -/
def isKeyStart (c : Char) : Bool := c.isAlpha || c == '_' || c == '$'

/-- Characters that may continue a key in dotted form. -/
def isKeyChar (c : Char) : Bool := c.isAlphanum || c == '_' || c == '$'

end MessageLens
