import Cadence.Interval
import Mathlib.Tactic.Common

/-!
# Beats

The deadlines of a timer that starts at zero and keeps them: within the clock's range they are the multiples of its
period, beyond it they lie thirty years apart.

* `after?_eq_some`: an instant that the clock can represent is the plain sum.
* `beat_eq`: within the clock's range a beat is a multiple of the period.
* `mul_le_beat`, `beat_le_mul`: in any case it lies between two multiples.
* `Interval.add_min_le_fire`: every interval moves on by its period or by thirty years at least.
-/

namespace Cadence

namespace Clock

/-- The `k`-th deadline, from zero, of a timer with period `d` that starts at zero. -/
def beat (d : Duration) : Nat → Nat
  | 0 => 0
  | k + 1 => after (beat d k) d

/-- An instant that the clock can represent is the plain sum. -/
lemma after?_eq_some {t u : Nat} {d : Duration} (h : after? t d = some u) : u = t + d.nanos := by
  unfold after? at h
  split at h
  · exact (Option.some.inj h).symm
  · cases h

/-- A later instant is the sum, or thirty years ahead. -/
lemma after_cases (t : Nat) (d : Duration) :
    (t + d.nanos < limit ∧ after t d = t + d.nanos) ∨ (limit ≤ t + d.nanos ∧ after t d = t + far) := by
  by_cases h : t + d.nanos < limit
  · exact .inl ⟨h, after_eq h⟩
  · refine .inr ⟨Nat.not_lt.mp h, ?_⟩
    simp [after, after?, h, farAhead]

/-- A later instant is later by the duration or by thirty years at least. -/
lemma add_min_le_after (t : Nat) (d : Duration) : t + min d.nanos far ≤ after t d := by
  obtain ⟨_, h⟩ | ⟨_, h⟩ := after_cases t d <;> rw [h] <;> omega

lemma after_le_add_max (t : Nat) (d : Duration) : after t d ≤ t + max d.nanos far := by
  obtain ⟨_, h⟩ | ⟨_, h⟩ := after_cases t d <;> rw [h] <;> omega

lemma le_after (t : Nat) (d : Duration) : t ≤ after t d :=
  Nat.le_trans (Nat.le_add_right _ _) (add_min_le_after t d)

/-- Within the clock's range a beat is a multiple of the period. -/
theorem beat_eq {d : Duration} {k : Nat} (h : k * d.nanos < limit) : beat d k = k * d.nanos := by
  induction k with
  | zero => rw [Nat.zero_mul]; rfl
  | succ k ih =>
    rw [Nat.succ_mul] at h ⊢
    have hk := ih (Nat.lt_of_le_of_lt (Nat.le_add_right _ _) h)
    rw [beat, hk, after_eq h]

/-- Beats do not come earlier than the shorter of the period and thirty years allows. -/
lemma mul_le_beat (d : Duration) (k : Nat) : k * min d.nanos far ≤ beat d k := by
  induction k with
  | zero => rw [Nat.zero_mul]; exact Nat.zero_le _
  | succ k ih =>
    rw [Nat.succ_mul, beat]
    exact Nat.le_trans (Nat.add_le_add_right ih _) (add_min_le_after _ d)

lemma beat_le_mul (d : Duration) (k : Nat) : beat d k ≤ k * max d.nanos far := by
  induction k with
  | zero => exact Nat.zero_le _
  | succ k ih =>
    rw [Nat.succ_mul, beat]
    exact Nat.le_trans (after_le_add_max _ d) (Nat.add_le_add_right ih _)

lemma beat_mono (d : Duration) {j k : Nat} (h : j ≤ k) : beat d j ≤ beat d k := by
  induction h with
  | refl => exact Nat.le_refl _
  | step _ ih => exact Nat.le_trans ih (le_after _ d)

end Clock

namespace Interval
open Clock

/-- An interval that fires moves on by its period or by thirty years at least. -/
lemma add_min_le_fire (i : Interval) (now : Nat) :
    i.deadline + min i.period.nanos far ≤ (i.fire now).deadline := by
  have h := add_min_le_after i.deadline i.period
  unfold fire following
  split
  · exact h
  · split
    · next hlate =>
      have hnow := add_min_le_after now i.period
      dsimp only
      omega
    · exact h

lemma le_fire (i : Interval) (now : Nat) : i.deadline ≤ (i.fire now).deadline :=
  Nat.le_trans (Nat.le_add_right _ _) (add_min_le_fire i now)

end Interval
end Cadence
