import Cadence.Count
import Cadence.Text.Blank

/-!
# Quantities

A number in ASCII digits followed by a unit, as in `250ms` or `4 KiB`.

* `digitsValue_append`: the value of a longer run of digits.
* `split?_eq_none_iff`: a text is no quantity exactly if it starts with no digit or its number has no 64-bit
  value.
-/

namespace Cadence.Quantity

open Text

/-- The value of a run of digits. -/
def digitsValue (ds : List Char) : Nat := ds.foldl (fun n d => n * 10 + (d.toNat - 48)) 0

/-- The leading ASCII digits. -/
def number (s : List Char) : List Char := s.takeWhile Char.isDigit

/-- What follows the leading ASCII digits, trimmed. -/
def unit (s : List Char) : List Char := trim (s.dropWhile Char.isDigit)

/-- The number and the unit of a text that starts with a digit and whose number fits in 64 bits. -/
def split? (s : List Char) : Option (Nat × List Char) :=
  if (number s).isEmpty then none
  else if Count.top < digitsValue (number s) then none
  else some (digitsValue (number s), unit s)

theorem digitsValue_append (ds : List Char) (d : Char) :
    digitsValue (ds ++ [d]) = digitsValue ds * 10 + (d.toNat - 48) := by
  simp [digitsValue]

theorem split?_eq_none_iff (s : List Char) :
    split? s = none ↔ number s = [] ∨ Count.top < digitsValue (number s) := by
  unfold split?
  split
  · simp_all
  · split <;> simp_all

end Cadence.Quantity
