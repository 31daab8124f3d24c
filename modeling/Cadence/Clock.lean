import Cadence.Duration

/-!
# The clock

Instants are nanoseconds since the clock's origin. Timers have a grain of one millisecond: a wait for a deadline
ends at the first whole millisecond that is not before it, or at once if that has passed.

* `Clock.le_ceilMs`, `Clock.ceilMs_lt`: the whole millisecond is at most one millisecond late.
* `Clock.after_eq`: within the clock's range a later instant is the plain sum.
-/

namespace Cadence

namespace Clock

/-- The clock counts seconds in 63 bits; this instant and later ones are out of its range. -/
def limit : Nat := 9223372036854775808000000000

/-- The first whole millisecond that is not before `t`. -/
def ceilMs (t : Nat) : Nat := (t + 999999) / 1000000 * 1000000

/-- The instant `d` after `t`, if the clock can represent it. -/
def after? (t : Nat) (d : Duration) : Option Nat :=
  if t + d.nanos < limit then some (t + d.nanos) else none

/-- Thirty years. -/
def far : Nat := 946080000000000000

/-- Thirty years after `t`, which stands for an instant that the clock cannot represent. -/
def farAhead (t : Nat) : Nat := t + far

/-- The instant `d` after `t`, or one far ahead. -/
def after (t : Nat) (d : Duration) : Nat := (after? t d).getD (farAhead t)

/-- When a wait for `deadline` ends that begins at `now`. -/
def wake (now deadline : Nat) : Nat := max now (ceilMs deadline)

/-- The time since `start`, none if it lies ahead. -/
def since (now start : Nat) : Duration := Duration.clamp (now - start)

theorem le_ceilMs (t : Nat) : t ≤ ceilMs t := by
  unfold ceilMs
  omega

theorem ceilMs_lt (t : Nat) : ceilMs t < t + 1000000 := by
  unfold ceilMs
  omega

theorem ceilMs_mono {s t : Nat} (h : s ≤ t) : ceilMs s ≤ ceilMs t :=
  Nat.mul_le_mul_right _ (Nat.div_le_div_right (Nat.add_le_add_right h _))

theorem after_eq {t : Nat} {d : Duration} (h : t + d.nanos < limit) : after t d = t + d.nanos := by
  unfold after after?
  rw [if_pos h]
  rfl

end Clock
end Cadence
