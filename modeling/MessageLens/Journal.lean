/-!
# Log records

Operations report what a user may want to know as records of a level, the part of the program that
speaks, and a message.
-/

namespace MessageLens
set_option autoImplicit false

/-- The severity of a record. -/
inductive LogLevel where
  | debug
  | info
  | warning
  | error
  deriving DecidableEq, Repr, Inhabited

namespace LogLevel

/-- The name of a level. -/
def name : LogLevel → String
  | debug => "DEBUG"
  | info => "INFO"
  | warning => "WARNING"
  | error => "ERROR"

/-- Levels in order of severity. -/
def severity : LogLevel → Nat
  | debug => 0
  | info => 1
  | warning => 2
  | error => 3

end LogLevel

/-- One record of the log. -/
structure LogRecord where
  level : LogLevel
  source : String
  message : String
  deriving DecidableEq, Repr, Inhabited

end MessageLens
