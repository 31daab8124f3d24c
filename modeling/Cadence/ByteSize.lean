import Cadence.Decimal.Fixed
import Cadence.Quantity

/-!
# Byte sizes

Sizes are read as a whole number of a binary unit and shown with two decimal places.

* `ByteSize.unitExponent?` is the table of units, blind to ASCII case.
* `ByteSize.parse` refuses a text for one of three reasons.
-/

namespace Cadence.ByteSize

open Text

/-- Why a text is no size. The text is the trimmed one. -/
inductive SizeError where
  | malformed (text : String)
  | tooLarge (text : String)
  | notPositive (text : String)
deriving DecidableEq, Repr

/-- The wording of a refusal. -/
def SizeError.message : SizeError → String
  | .malformed s => "invalid size '" ++ s ++ "' (expected e.g. 1024, 4KiB, 1MiB)"
  | .tooLarge s => "size '" ++ s ++ "' is too large"
  | .notPositive s => "size '" ++ s ++ "' must be positive"

/-- An ASCII capital in lower case, any other character unchanged. -/
def lowerAscii (c : Char) : Char := c.toLower

/-- The power of 1024 that a unit stands for. -/
def unitExponent? (unit : List Char) : Option Nat :=
  let name := String.ofList (unit.map lowerAscii)
  if name ∈ ["", "b"] then some 0
  else if name ∈ ["k", "kb", "kib"] then some 1
  else if name ∈ ["m", "mb", "mib"] then some 2
  else if name ∈ ["g", "gb", "gib"] then some 3
  else none

/-- Reads a positive number of bytes. -/
def parse (text : String) : Except SizeError Nat :=
  let s := trim text.toList
  match Quantity.split? s with
  | none => .error (.malformed (String.ofList s))
  | some (value, unit) =>
    match unitExponent? unit with
    | none => .error (.malformed (String.ofList s))
    | some e =>
      if Count.top < value * Nat.pow 1024 e then .error (.tooLarge (String.ofList s))
      else if value * Nat.pow 1024 e = 0 then .error (.notPositive (String.ofList s))
      else .ok (value * Nat.pow 1024 e)

/-- The size in the largest binary unit of which there is at least one. -/
def display (bytes : Nat) : String :=
  if 1073741824 ≤ bytes then Decimal.fixed 2 (Count.toFloat bytes / 1073741824.0) ++ "GiB"
  else if 1048576 ≤ bytes then Decimal.fixed 2 (Count.toFloat bytes / 1048576.0) ++ "MiB"
  else if 1024 ≤ bytes then Decimal.fixed 2 (Count.toFloat bytes / 1024.0) ++ "KiB"
  else toString bytes ++ "B"

end Cadence.ByteSize
