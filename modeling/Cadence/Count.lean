/-!
# Counts

Counters of 64 bits that stay at their top instead of wrapping.

* `Count.top` is the largest count.
* `Count.next_eq`: below the top, a step adds one.
* `Count.cap_eq`: a number within the range is kept.
* `Count.next_cap`: steps count up to the top.
-/

namespace Cadence.Count

/-- The largest count. -/
def top : Nat := 18446744073709551615

/-- The number itself, or the largest count if it is larger. -/
def cap (n : Nat) : Nat := min n top

/-- One more, staying at the top. -/
def next (n : Nat) : Nat := cap (n + 1)

/-- What a counter that wraps shows for `n`. -/
def wrap (n : Nat) : Nat := n % (top + 1)

/-- The nearest double. -/
def toFloat (n : Nat) : Float := (cap n).toUInt64.toFloat

/-- The smallest count that is not below a double; negative numbers and what is no number count as zero. -/
def ceil (x : Float) : Nat :=
  let whole := x.toUInt64.toNat
  if toFloat whole < x then cap (whole + 1) else whole

theorem cap_le (n : Nat) : cap n ≤ top := Nat.min_le_right n top

theorem cap_eq {n : Nat} (h : n ≤ top) : cap n = n := Nat.min_eq_left h

theorem cap_mono {m n : Nat} (h : m ≤ n) : cap m ≤ cap n := by
  unfold cap
  omega

theorem next_eq {n : Nat} (h : n < top) : next n = n + 1 := cap_eq h

theorem next_cap (n : Nat) : next (cap n) = cap (n + 1) := by
  unfold next cap
  omega

theorem wrap_eq {n : Nat} (h : n ≤ top) : wrap n = n := Nat.mod_eq_of_lt (Nat.lt_succ_of_le h)

end Cadence.Count
