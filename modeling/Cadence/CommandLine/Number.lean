import Cadence.Count

/-!
# Whole numbers on the command line

Decimal numbers with an optional sign. A number that does not fit its range is refused at the digit where it
leaves the range, so the first wrong character decides which of two faults is told.

* `Number.digits_ok_le`: what is read stays within the range.
-/

namespace Cadence.CommandLine.Number

/-- Why a text is no whole number. -/
inductive NumberFault where
  | empty
  | invalidDigit
  | tooLarge
  | tooSmall
deriving DecidableEq, Repr

/-- The wording of a fault. -/
def NumberFault.message : NumberFault → String
  | .empty => "cannot parse integer from empty string"
  | .invalidDigit => "invalid digit found in string"
  | .tooLarge => "number too large to fit in target type"
  | .tooSmall => "number too small to fit in target type"

/-- Reads digits after a value read so far. The value may not pass `top`; `beyond` is the fault if it does. -/
def digits (top : Nat) (beyond : NumberFault) : Nat → List Char → Except NumberFault Nat
  | value, [] => .ok value
  | value, c :: cs =>
    if c.isDigit then
      if top < value * 10 + (c.toNat - 48) then .error beyond
      else digits top beyond (value * 10 + (c.toNat - 48)) cs
    else .error .invalidDigit

/-- Reads at least one digit. -/
def magnitude (top : Nat) (beyond : NumberFault) (cs : List Char) : Except NumberFault Nat :=
  if cs.isEmpty then .error .invalidDigit else digits top beyond 0 cs

/-- Reads a number of 64 bits, with a plus sign or none. -/
def unsigned : List Char → Except NumberFault Nat
  | [] => .error .empty
  | '+' :: cs => magnitude Count.top .tooLarge cs
  | cs => magnitude Count.top .tooLarge cs

/-- Reads a number of 63 bits and a sign, which may be left out. -/
def signed : List Char → Except NumberFault Int
  | [] => .error .empty
  | '+' :: cs => (magnitude 9223372036854775807 .tooLarge cs).map Int.ofNat
  | '-' :: cs => (magnitude 9223372036854775808 .tooSmall cs).map fun n => -Int.ofNat n
  | cs => (magnitude 9223372036854775807 .tooLarge cs).map Int.ofNat

theorem digits_ok_le {top : Nat} {beyond : NumberFault} {value n : Nat} {cs : List Char}
    (h : digits top beyond value cs = .ok n) (hv : value ≤ top) : n ≤ top := by
  induction cs generalizing value with
  | nil => cases h; exact hv
  | cons c cs ih =>
    simp only [digits] at h
    split at h
    · split at h
      · cases h
      · exact ih h (by omega)
    · cases h

theorem unsigned_ok_le {cs : List Char} {n : Nat} (h : unsigned cs = .ok n) : n ≤ Count.top := by
  have key : ∀ ds, magnitude Count.top .tooLarge ds = .ok n → n ≤ Count.top := by
    intro ds hd
    unfold magnitude at hd
    split at hd
    · cases hd
    · exact digits_ok_le hd (Nat.zero_le _)
  unfold unsigned at h
  split at h
  · cases h
  · exact key _ h
  · exact key _ h

end Cadence.CommandLine.Number
