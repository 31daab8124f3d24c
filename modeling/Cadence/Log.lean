/-!
# Log records

What the program tells about itself: a level, a message and named values in a fixed order.
-/

namespace Cadence.Log

/-- How important a record is, the most important first. -/
inductive Level where
  | error
  | warn
  | info
  | debug
  | trace
deriving DecidableEq, Repr

/-- The rank of a level; more important ones have a lower rank. -/
def Level.rank : Level → Nat
  | error => 1
  | warn => 2
  | info => 3
  | debug => 4
  | trace => 5

/-- The name of a level in log lines. -/
def Level.name : Level → String
  | error => "ERROR"
  | warn => "WARN"
  | info => "INFO"
  | debug => "DEBUG"
  | trace => "TRACE"

/-- A named value: a text that is quoted, one that is not, a count, or a number. -/
inductive Value where
  | quoted (text : String)
  | bare (text : String)
  | count (n : Nat)
  | number (x : Float)

/-- One log record. -/
structure Record where
  level : Level
  message : String
  fields : List (String × Value)

end Cadence.Log
