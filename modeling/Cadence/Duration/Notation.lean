import Cadence.Duration
import Cadence.Quantity

/-!
# Written durations

Durations are written as a whole number of one unit: read with any of the units' spellings, shown with the
unit that the magnitude selects.

* `Duration.unitNanos?` is the table of spellings.
* `Duration.parse` tells four reasons for refusing a text apart.
* `Duration.display` rounds a half up and writes whole minutes as minutes.
-/

namespace Cadence

/-- Why a text is no duration. The text is the trimmed one. -/
inductive DurationError where
  | empty
  | malformed (text : String)
  | tooLarge (text : String)
  | notPositive (text : String)
deriving DecidableEq, Repr

/-- The wording of a refusal. -/
def DurationError.message : DurationError → String
  | .empty => "duration cannot be empty (expected e.g. 10s, 250ms, 1m)"
  | .malformed s => "invalid duration '" ++ s ++ "' (expected e.g. 10s, 250ms, 1m)"
  | .tooLarge s => "duration '" ++ s ++ "' is too large"
  | .notPositive s => "duration '" ++ s ++ "' must be positive"

namespace Duration

open Text

/-- The nanoseconds of a unit by its spelling; no spelling at all means seconds. -/
def unitNanos? (unit : String) : Option Nat :=
  if unit ∈ ["", "s", "sec", "secs", "second", "seconds"] then some 1000000000
  else if unit ∈ ["ms", "msec", "msecs", "millisecond", "milliseconds"] then some 1000000
  else if unit ∈ ["us", "µs", "usec", "usecs", "microsecond", "microseconds"] then some 1000
  else if unit ∈ ["m", "min", "mins", "minute", "minutes"] then some 60000000000
  else if unit ∈ ["h", "hr", "hrs", "hour", "hours"] then some 3600000000000
  else none

/-- Reads a trimmed, non-empty text. -/
def parseTrimmed (s : List Char) : Except DurationError Duration :=
  match Quantity.split? s with
  | none => .error (.malformed (String.ofList s))
  | some (value, unit) =>
    match unitNanos? (String.ofList unit) with
    | none => .error (.malformed (String.ofList s))
    | some nanos =>
      if h : value * nanos < limit then
        if value * nanos = 0 then .error (.notPositive (String.ofList s)) else .ok ⟨value * nanos, h⟩
      else .error (.tooLarge (String.ofList s))

/-- Reads a positive duration: digits, then a unit, with blanks allowed around both. -/
def parse (text : String) : Except DurationError Duration :=
  match trim text.toList with
  | [] => .error .empty
  | s => parseTrimmed s

/-- The quotient rounded to the nearest whole number, a half going up. -/
def roundHalfUp (value unit : Nat) : Nat := (value + unit / 2) / unit

/-- One rounded number with its unit. -/
def display (d : Duration) : String :=
  if 60000000000 ≤ d.nanos ∧ d.nanos % 60000000000 = 0 then toString (d.nanos / 60000000000) ++ "m"
  else if 1000000000 ≤ d.nanos then toString (roundHalfUp d.nanos 1000000000) ++ "s"
  else if 1000000 ≤ d.nanos then toString (roundHalfUp d.nanos 1000000) ++ "ms"
  else toString (roundHalfUp d.nanos 1000) ++ "us"

/-- `n` thousandths, millionths, … of a unit written with the digits that matter: `places` decimal places less
the trailing zeros. -/
def withFraction (whole fraction places : Nat) : String :=
  let digits := toString fraction
  let all := List.replicate (places - digits.length) '0' ++ digits.toList
  match (all.reverse.dropWhile (· == '0')).reverse with
  | [] => toString whole
  | ds => toString whole ++ "." ++ String.ofList ds

/-- The exact length in the largest of the units s, ms, µs and ns of which there is at least one. -/
def exact (d : Duration) : String :=
  if 1000000000 ≤ d.nanos then withFraction d.seconds d.subsecond 9 ++ "s"
  else if 1000000 ≤ d.nanos then withFraction (d.nanos / 1000000) (d.nanos % 1000000) 6 ++ "ms"
  else if 1000 ≤ d.nanos then withFraction (d.nanos / 1000) (d.nanos % 1000) 3 ++ "µs"
  else toString d.nanos ++ "ns"

end Duration
end Cadence
