import Cadence.Clock

/-!
# Intervals

A timer that fires again and again. Its deadlines are a period apart; what happens after a deadline was missed is
its policy: a bursting interval keeps the deadlines it had and so catches up, a delaying one that is more than
five milliseconds late starts its period anew. A deadline that the clock cannot represent is put far ahead, except by an
interval that is late: that one breaks down.

* `Interval.breaks` says at which instants an interval cannot fire.
* `Interval.breaks_of_le`: one that is in time does not break down.
-/

namespace Cadence

/-- What an interval does about missed deadlines. -/
inductive Missed where
  | burst
  | delay
deriving DecidableEq, Repr

/-- A repeating timer and its next deadline. -/
structure Interval where
  deadline : Nat
  period : Duration
  missed : Missed
deriving DecidableEq

namespace Interval

/-- How late an interval may fire and still count as in time, in nanoseconds. -/
def tolerance : Nat := 5000000

/-- Whether the interval fires at `now`. -/
def isDue (i : Interval) (now : Nat) : Bool := Clock.ceilMs i.deadline ≤ now

/-- The deadline after the one that fires at `now`. -/
def following (i : Interval) (now : Nat) : Nat :=
  match i.missed with
  | .burst => Clock.after i.deadline i.period
  | .delay =>
    if i.deadline + tolerance < now then Clock.after now i.period
    else Clock.after i.deadline i.period

/-- The instant that the deadline after the one that fires at `now` is a period after. -/
def origin (i : Interval) (now : Nat) : Nat :=
  match i.missed with
  | .burst => i.deadline
  | .delay => if i.deadline + tolerance < now then now else i.deadline

/-- Whether the interval breaks down when it fires at `now`: it is late, and the clock does not go as far as its next
deadline. -/
def breaks (i : Interval) (now : Nat) : Bool :=
  i.deadline + tolerance < now && Clock.limit ≤ i.origin now + i.period.nanos

/-- The interval after it fired at `now`, if it did not break down. -/
def fire (i : Interval) (now : Nat) : Interval := { i with deadline := i.following now }

/-- Waits from `now` for the next deadline: when the wait ends, and the interval from there on. -/
def wait (i : Interval) (now : Nat) : Nat × Interval :=
  (Clock.wake now i.deadline, i.fire (Clock.wake now i.deadline))

theorem following_eq (i : Interval) (now : Nat) : i.following now = Clock.after (i.origin now) i.period := by
  unfold following origin
  split
  · rfl
  · split <;> rfl

/-- An interval that fires in time does not break down. -/
theorem breaks_of_le {i : Interval} {now : Nat} (h : now ≤ i.deadline + tolerance) : i.breaks now = false := by
  simp [breaks, Nat.not_lt.mpr h]

end Interval
end Cadence
