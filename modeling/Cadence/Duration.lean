import Cadence.Count

/-!
# Durations

Lengths of time in whole nanoseconds, at most `2 ^ 64 - 1` seconds and 999999999 nanoseconds.

* `Duration.clamp_nanos`: a length within the range is kept exactly.
* `Duration.add_nanos`: addition stops at the largest duration.
-/

namespace Cadence

/-- Nanoseconds beyond the largest duration. -/
def Duration.limit : Nat := 18446744073709551616000000000

/-- A length of time. -/
structure Duration where
  nanos : Nat
  nanos_lt : nanos < Duration.limit
deriving DecidableEq

namespace Duration

/-- The duration of `n` nanoseconds, or the largest one. -/
def clamp (n : Nat) : Duration :=
  if h : n < limit then ⟨n, h⟩ else ⟨limit - 1, by decide⟩

/-- No time at all. -/
def zero : Duration := ⟨0, by decide⟩

instance : Inhabited Duration := ⟨zero⟩

/-- The duration of `n` microseconds. -/
def ofMicros (n : Nat) : Duration := clamp (n * 1000)

/-- The duration of `n` milliseconds. -/
def ofMillis (n : Nat) : Duration := clamp (n * 1000000)

/-- The duration of `n` seconds. -/
def ofSeconds (n : Nat) : Duration := clamp (n * 1000000000)

/-- The sum, or the largest duration. -/
def add (a b : Duration) : Duration := clamp (a.nanos + b.nanos)

instance : Add Duration := ⟨add⟩

/-- Whole seconds. -/
def seconds (d : Duration) : Nat := d.nanos / 1000000000

/-- Nanoseconds beyond the whole seconds. -/
def subsecond (d : Duration) : Nat := d.nanos % 1000000000

/-- Whole milliseconds. -/
def millis (d : Duration) : Nat := d.nanos / 1000000

/-- Whole microseconds. -/
def micros (d : Duration) : Nat := d.nanos / 1000

/-- Whether there is no time in it. -/
def isZero (d : Duration) : Bool := d.nanos == 0

/-- Seconds as a double: the whole seconds and the fraction are rounded, then added. -/
def toSeconds (d : Duration) : Float :=
  Count.toFloat d.seconds + Count.toFloat d.subsecond / 1000000000.0

/-- Milliseconds as a double. -/
def toMillis (d : Duration) : Float := d.toSeconds * 1000.0

@[ext] theorem ext {a b : Duration} (h : a.nanos = b.nanos) : a = b := by
  cases a; cases b; cases h; rfl

theorem clamp_nanos {n : Nat} (h : n < limit) : (clamp n).nanos = n := by
  unfold clamp
  rw [dif_pos h]

theorem clamp_of_le {n : Nat} (h : limit ≤ n) : (clamp n).nanos = limit - 1 := by
  unfold clamp
  rw [dif_neg (Nat.not_lt.mpr h)]

theorem clamp_eq_min (n : Nat) : (clamp n).nanos = min n (limit - 1) := by
  by_cases h : n < limit
  · rw [clamp_nanos h]
    simp only [limit] at *
    omega
  · rw [clamp_of_le (by omega)]
    simp only [limit] at *
    omega

theorem add_nanos (a b : Duration) : (a + b).nanos = min (a.nanos + b.nanos) (limit - 1) :=
  clamp_eq_min _

theorem isZero_iff {d : Duration} : d.isZero = true ↔ d.nanos = 0 := by
  simp [isZero]

end Duration
end Cadence
