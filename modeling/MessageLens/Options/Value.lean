import MessageLens.Json.Value
import MessageLens.Number.Lenient

/-!
# Values given for options

Options come from documents of several formats. What their validation can tell apart is gathered
here, with the lenient readings of flags and integers.
-/

namespace MessageLens
set_option autoImplicit false

/-- A value given for an option. -/
inductive OptionValue where
  | flag (b : Bool)
  | int (n : Int)
  | real (x : Binary64)
  /-- An infinity, or a number that is none. -/
  | nonFinite
  | text (s : String)
  | table (members : List (String × OptionValue))
  /-- Lists, dates, times and the absent value. -/
  | other
  deriving Inhabited

/-- What is wrong with a value. -/
inductive Fault where
  | extraForbidden
  | modelType
  | stringType
  | stringTooShort
  | stringPatternMismatch
  | boolType
  | boolParsing
  | intType
  | intParsing
  | intFromFloat
  | intParsingSize
  | finiteNumber
  | greaterThanEqual
  deriving DecidableEq, Repr

/-- The name under which a fault is reported. -/
def Fault.name : Fault → String
  | extraForbidden => "extra_forbidden"
  | modelType => "model_type"
  | stringType => "string_type"
  | stringTooShort => "string_too_short"
  | stringPatternMismatch => "string_pattern_mismatch"
  | boolType => "bool_type"
  | boolParsing => "bool_parsing"
  | intType => "int_type"
  | intParsing => "int_parsing"
  | intFromFloat => "int_from_float"
  | intParsingSize => "int_parsing_size"
  | finiteNumber => "finite_number"
  | greaterThanEqual => "greater_than_equal"

namespace OptionValue

/-- Words for a flag that is off, in small letters. -/
def offWords : List String := ["0", "off", "f", "false", "n", "no"]

/-- Words for a flag that is on, in small letters. -/
def onWords : List String := ["1", "on", "t", "true", "y", "yes"]

/-- The flag that an integer stands for. -/
def flagOfInt : Int → Except Fault Bool
  | 0 => .ok false
  | 1 => .ok true
  | _ => .error .boolParsing

/-- Whether an integer fits in 64 bits with a sign. -/
def fitsInt64 (n : Int) : Bool := -(signedBound : Int) ≤ n && n < signedBound

/-- The value as a flag. Numbers other than zero and one, and words outside the lists, cannot be
read; a number with a fraction or beyond 64 bits is no flag at all, nor is a real as large as the
bound of 64 bits on either side. -/
def toFlag : OptionValue → Except Fault Bool
  | flag b => .ok b
  | int n => if fitsInt64 n then flagOfInt n else .error .boolType
  | real x =>
    match x.toInt? with
    | some n => if n.natAbs < signedBound then flagOfInt n else .error .boolType
    | none => .error .boolType
  | text s =>
    let word := s.map Char.toLower
    if word ∈ onWords then .ok true else if word ∈ offWords then .ok false else .error .boolParsing
  | _ => .error .boolType

/-- The fault of an option whose text is read as no integer. -/
def ofIntegerFault : IntegerFault → Fault
  | .malformed => .intParsing
  | .tooLong => .intParsingSize

/-- The value as an integer. -/
def toInteger : OptionValue → Except Fault Int
  | flag b => .ok (if b then 1 else 0)
  | int n => .ok n
  | real x =>
    match x.toInt? with
    | some n => if n.natAbs < signedBound then .ok n else .error .intParsingSize
    | none => .error .intFromFloat
  | nonFinite => .error .finiteNumber
  | text s => (lenientInteger s).mapError ofIntegerFault
  | _ => .error .intType

/-- The value as a text. -/
def toText : OptionValue → Except Fault String
  | text s => .ok s
  | _ => .error .stringType

mutual

/-- A JSON value given for an option. -/
def ofJson : Json → OptionValue
  | .bool b => flag b
  | .int n => int n
  | .real x => real x
  | .str s => text s
  | .obj members => table (ofJsonMembers members)
  | .null => other
  | .arr _ => other

/-- JSON members given for a group of options. -/
def ofJsonMembers : List (String × Json) → List (String × OptionValue)
  | [] => []
  | (k, v) :: rest => (k, ofJson v) :: ofJsonMembers rest

end

end OptionValue

end MessageLens
