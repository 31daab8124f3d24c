import Cadence.Tally
import Mathlib.Data.List.Perm.Basic
import Mathlib.Logic.OpClass

/-!
# Tallies do not see an order

Two results leave the same tally whichever of them is recorded first (`record_right_comm`): counts that stay at their
top, a sum of latencies that stays at its largest, and a histogram that finds the level of each value. So the results of
a run leave the same tally in every order (`ofOutcomes_perm`), and of a failure nothing enters it but that it failed
(`record_bare`).
-/

namespace Cadence

/-- Sums that stop at the largest duration can be taken in any order. -/
lemma Duration.add_right_comm (a b c : Duration) : a + b + c = a + c + b := by
  apply Duration.ext
  simp only [Duration.add_nanos]
  omega

namespace Latency

lemma bump_head (low n : Nat) (levels : List (Nat × Nat)) : bump low ((low, n) :: levels) = (low, n + 1) :: levels := by
  simp [bump]

lemma bump_before {low l : Nat} (h : low < l) (n : Nat) (levels : List (Nat × Nat)) :
    bump low ((l, n) :: levels) = (low, 1) :: (l, n) :: levels := by
  simp [bump, h, Nat.ne_of_lt h]

lemma bump_after {low l : Nat} (h : l < low) (n : Nat) (levels : List (Nat × Nat)) :
    bump low ((l, n) :: levels) = (l, n) :: bump low levels := by
  simp [bump, Nat.ne_of_gt h, Nat.not_lt_of_gt h]

/-- It does not matter whether the lower or the higher one of two levels grows first. -/
lemma bump_comm_of_lt {low high : Nat} (h : low < high) (levels : List (Nat × Nat)) :
    bump low (bump high levels) = bump high (bump low levels) := by
  induction levels with
  | nil =>
    show bump low [(high, 1)] = bump high [(low, 1)]
    rw [bump_before h, bump_after h]
    rfl
  | cons level levels ih =>
    obtain ⟨l, n⟩ := level
    -- where the higher one belongs relative to the first level, then where the lower one does
    obtain hlt | rfl | hgt := Nat.lt_trichotomy high l
    · rw [bump_before hlt, bump_before h, bump_before (Nat.lt_trans h hlt), bump_after h, bump_before hlt]
    · rw [bump_head, bump_before h, bump_before h, bump_after h, bump_head]
    · rw [bump_after hgt]
      obtain hlow | rfl | hlow := Nat.lt_trichotomy low l
      · rw [bump_before hlow, bump_before hlow, bump_after h, bump_after hgt]
      · rw [bump_head, bump_head, bump_after hgt]
      · rw [bump_after hlow, bump_after hlow, bump_after hgt, ih]

/-- It does not matter which of two levels grows first. -/
lemma bump_comm (low low' : Nat) (levels : List (Nat × Nat)) :
    bump low (bump low' levels) = bump low' (bump low levels) := by
  obtain h | rfl | h := Nat.lt_trichotomy low low'
  · exact bump_comm_of_lt h levels
  · rfl
  · exact (bump_comm_of_lt h levels).symm

lemma Histogram.record_right_comm (h : Histogram) (value value' : Nat) :
    (h.record value).record value' = (h.record value').record value := by
  simp only [Histogram.record, bump_comm]

end Latency

/-- An outcome as it counts: of a failure nothing but that it failed. -/
def Outcome.bare (o : Outcome) : Outcome := if o.succeeded then o else .failure Duration.zero

/-- The identifier that an outcome brings, if it is a success that made one. -/
def Outcome.made? (o : Outcome) : Option String := if o.succeeded then o.produced else none

lemma Outcome.made?_bare (o : Outcome) : o.bare.made? = o.made? := by
  cases h : o.succeeded <;> simp [bare, made?, h, failure]

/-- What failures leave behind makes no identifiers. -/
lemma Outcome.filterMap_bare (os : List Outcome) : (os.map bare).filterMap made? = os.filterMap made? := by
  rw [List.filterMap_map]
  exact List.filterMap_congr fun o _ => o.made?_bare

namespace Tally

lemma record_success {t : Tally} {o : Outcome} (h : o.succeeded = true) :
    t.record o = { t with
      completed := Count.next t.completed
      totalLatency := t.totalLatency + o.latency
      latencies := t.latencies.record (Latency.valueOf o.latency) } := by
  simp [record, h]

/-- Of a failure nothing enters a tally but that it failed. -/
lemma record_bare (t : Tally) (o : Outcome) : t.record o.bare = t.record o := by
  cases h : o.succeeded with
  | true => simp [Outcome.bare, h]
  | false =>
    have hbare : o.bare = .failure Duration.zero := by simp [Outcome.bare, h]
    rw [hbare, record_failure h, record_failure rfl]

lemma record_right_comm (t : Tally) (o o' : Outcome) : (t.record o).record o' = (t.record o').record o := by
  cases h : o.succeeded with
  | true =>
    cases h' : o'.succeeded with
    | true =>
      simp only [record_success h, record_success h']
      rw [Duration.add_right_comm, Latency.Histogram.record_right_comm]
    | false => simp only [record_success h, record_failure h']
  | false =>
    cases h' : o'.succeeded with
    | true => simp only [record_failure h, record_success h']
    | false => simp only [record_failure h, record_failure h']

instance : RightCommutative record := ⟨record_right_comm⟩

/-- How many operations were sent plays no part in what a result leaves. -/
lemma record_sent (t : Tally) (o : Outcome) (n : Nat) :
    { t with sent := n }.record o = { t.record o with sent := n } := by
  cases h : o.succeeded with
  | true => simp only [record_success h]
  | false => simp only [record_failure h]

/-- The tally of results, taken one after the other. -/
def ofOutcomes (os : List Outcome) : Tally := os.foldl record empty

lemma ofOutcomes_append (os : List Outcome) (o : Outcome) : ofOutcomes (os ++ [o]) = (ofOutcomes os).record o := by
  simp [ofOutcomes]

lemma ofOutcomes_bare (os : List Outcome) : ofOutcomes (os.map Outcome.bare) = ofOutcomes os := by
  unfold ofOutcomes
  rw [List.foldl_map]
  simp only [record_bare]

/-- Results that count alike, in whatever order, make one tally. -/
theorem ofOutcomes_perm {os os' : List Outcome} (h : (os.map Outcome.bare).Perm (os'.map Outcome.bare)) :
    ofOutcomes os = ofOutcomes os' := by
  rw [← ofOutcomes_bare os, ← ofOutcomes_bare os']
  exact h.foldl_eq _

end Tally
end Cadence
