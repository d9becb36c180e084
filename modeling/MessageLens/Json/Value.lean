import MessageLens.Number.Shortest
import MessageLens.Table
import MessageLens.Text.Quoted

/-!
# JSON values

Values keep the order of object members. An integer that fits in 64 bits stays an integer; every
other number is a double. A value that is no text is displayed in a literal notation: members and
elements separated by commas, texts quoted, and the three constants spelt with a capital.
-/

namespace MessageLens
set_option autoImplicit false

/-- A JSON value. -/
inductive Json where
  | null
  | bool (b : Bool)
  | int (n : Int)
  | real (x : Binary64)
  | str (s : String)
  | arr (elems : List Json)
  | obj (members : List (String × Json))
  deriving Inhabited, Repr

namespace Json

/-- Whether a value is `null`. -/
def isNull : Json → Bool
  | null => true
  | _ => false

/-- The member of an object under a name. -/
def member? (members : List (String × Json)) (name : String) : Option Json := members.lookup name

/-- The member of an object under a name, unless it is absent or `null`. -/
def given? (members : List (String × Json)) (name : String) : Option Json :=
  (member? members name).filter (!·.isNull)

mutual

/-- The literal notation of a value. -/
def literal : Json → String
  | null => "None"
  | bool b => if b then "True" else "False"
  | int n => toString n
  | real x => x.text
  | str s => quoted s
  | arr elems => "[" ++ ", ".intercalate (literals elems) ++ "]"
  | obj members => "\x7b" ++ ", ".intercalate (memberLiterals members) ++ "\x7d"

/-- The literal notation of each value. -/
def literals : List Json → List String
  | [] => []
  | v :: vs => literal v :: literals vs

/-- The literal notation of each member. -/
def memberLiterals : List (String × Json) → List String
  | [] => []
  | (k, v) :: rest => (quoted k ++ ": " ++ literal v) :: memberLiterals rest

end

/-- The display text of a value: a text is itself. -/
def text : Json → String
  | str s => s
  | v => literal v

end Json

end MessageLens
