import Cadence.Proofs.Tally.Figures

/-!
# The aggregate of a history

What a tally shows is told by its history alone: how many operations were dispatched, succeeded and failed (`Numbers`),
and how long the successes took together, from which the average follows (`Gathers.average_eq`). The sum of the latencies
is cut off once, however many of its steps were, so an average is never above the longest success
(`Gathers.exists_average_le`), and below the shortest one only where something was cut off (`Gathers.exists_le_average`).

* `aggregate_in_closed_form`: all of this after every history.
-/

namespace Cadence

lemma Clock.since_nanos {started now : ℕ} (h : now < Duration.limit) :
    ((since now started).nanos : ℤ) = max 0 ((now : ℤ) - started) := by
  unfold since
  rw [Duration.clamp_nanos ((Nat.sub_le now started).trans_lt h)]
  omega

namespace Tally

open Latency

variable {t : Tally} {latencies : List Duration} {history : List Event} {a : Duration}

/-- A tally that counts the events of a history and no others. -/
structure Numbers (t : Tally) (history : List Event) : Prop where
  sent : t.sent = Count.cap (history.count .dispatched)
  failed : t.failed = Count.cap (history.countP Event.isFailure)

lemma Numbers.follow (h : Numbers t history) (e : Event) : Numbers (t.follow e) (history ++ [e]) := by
  cases e with
  | dispatched =>
    constructor
    · show Count.next t.sent = _
      rw [h.sent, Count.next_cap, List.count_append, List.count_singleton_self]
    · show t.failed = _
      rw [h.failed, List.countP_append]
      rfl
  | ended o =>
    have hcount : (history ++ [Event.ended o]).count .dispatched = history.count .dispatched := by
      rw [List.count_append]
      rfl
    cases ho : o.succeeded with
    | true =>
      have hfailure : [Event.ended o].countP Event.isFailure = 0 := by simp [Event.isFailure, ho]
      show Numbers (t.record o) _
      rw [record_success ho]
      constructor
      · rw [hcount, h.sent]
      · rw [List.countP_append, hfailure, h.failed, Nat.add_zero]
    | false =>
      have hfailure : [Event.ended o].countP Event.isFailure = 1 := by simp [Event.isFailure, ho]
      show Numbers (t.record o) _
      rw [record_failure ho]
      constructor
      · rw [hcount, h.sent]
      · rw [List.countP_append, hfailure, h.failed, Count.next_cap]

/-- After every history a tally counts its events. -/
theorem after_numbers (history : List Event) : Numbers (after history) history := by
  induction history using List.reverseRecOn with
  | nil => exact ⟨rfl, rfl⟩
  | append_singleton history e ih =>
    rw [after, List.foldl_append]
    exact ih.follow e

/-- Whatever has ended has succeeded or failed. -/
lemma length_successes_add (history : List Event) :
    (successes history).length + history.countP Event.isFailure = history.countP Event.isEnd := by
  induction history with
  | nil => rfl
  | cons e history ih =>
    have hone : e.latency?.toList.length + [e].countP Event.isFailure = [e].countP Event.isEnd := by
      cases e with
      | dispatched => rfl
      | ended o => cases ho : o.succeeded <;> simp [Event.latency?, Event.isFailure, Event.isEnd, ho]
    have hsplit : successes (e :: history) = e.latency?.toList ++ successes history := by
      rw [successes, List.filterMap_cons]
      cases e.latency? <;> rfl
    rw [hsplit, List.length_append, ← List.singleton_append, List.countP_append, List.countP_append]
    omega

/-- As long as results do not outrun dispatches, a result that comes is one of an operation that has not ended. -/
lemma Paced.countP_lt {n : ℕ} {o : Outcome} (h : Paced history) (hn : history[n]? = some (.ended o)) :
    (history.take n).countP Event.isEnd < (history.take n).count .dispatched := by
  obtain ⟨hlt, _⟩ := List.getElem?_eq_some_iff.mp hn
  -- one more has ended by the next point of the history, and no more were dispatched
  have hnext := h (n + 1) hlt
  rw [List.take_add_one, hn, Option.toList_some, List.countP_append, List.count_append] at hnext
  exact hnext

section Numbers

variable (hfew : history.length < 2 ^ 64)
include hfew

lemma after_sent : (after history).sent = history.count .dispatched := by
  rw [(after_numbers history).sent]
  exact Count.cap_eq (List.count_le_length.trans (Nat.le_of_lt_succ hfew))

lemma after_failed : (after history).failed = history.countP Event.isFailure := by
  rw [(after_numbers history).failed]
  exact Count.cap_eq (List.countP_le_length.trans (Nat.le_of_lt_succ hfew))

lemma after_completed : (after history).completed = (successes history).length := by
  rw [(after_gathers history).completed]
  exact Count.cap_eq ((List.length_filterMap_le _ _).trans (Nat.le_of_lt_succ hfew))

end Numbers

lemma Gathers.average_eq_none_iff (hg : Gathers t latencies) : t.average = none ↔ latencies = [] := by
  rw [Tally.average_eq_none_iff, hg.completed, ← List.length_eq_zero_iff]
  unfold Count.cap Count.top
  omega

lemma Gathers.average_eq (hg : Gathers t latencies) (hfew : latencies.length < 2 ^ 64) (ha : t.average = some a) :
    a.nanos = min (min (latencies.map (·.nanos)).sum (Duration.limit - 1) / latencies.length) (2 ^ 64 - 1) := by
  unfold average at ha
  split at ha
  · cases ha
  · obtain rfl := Option.some_inj.mp ha
    rw [hg.completed, Count.cap_eq (Nat.le_of_lt_succ hfew), hg.total]
    exact Duration.clamp_nanos ((Count.cap_le _).trans_lt (by decide))

lemma Gathers.ne_nil_of_average (hg : Gathers t latencies) (ha : t.average = some a) : latencies ≠ [] := by
  rintro rfl
  rw [hg.average_eq_none_iff.mpr rfl] at ha
  cases ha

/-- An average is not above the longest success, also where something was cut off. -/
lemma Gathers.exists_average_le (hg : Gathers t latencies) (hfew : latencies.length < 2 ^ 64)
    (ha : t.average = some a) : ∃ d ∈ latencies, a.nanos ≤ d.nanos := by
  have hmean := hg.average_le ha
  rw [hg.completed, Count.cap_eq (Nat.le_of_lt_succ hfew)] at hmean
  apply List.exists_le_of_sum_le (hg.ne_nil_of_average ha) (fun _ => a.nanos) (·.nanos)
  calc (latencies.map fun _ => a.nanos).sum
      = latencies.length * a.nanos := by rw [List.map_const', List.sum_replicate, smul_eq_mul]
    _ ≤ latencies.length * ((latencies.map (·.nanos)).sum / latencies.length) := Nat.mul_le_mul_left _ hmean
    _ ≤ (latencies.map (·.nanos)).sum := Nat.mul_div_le _ _

/-- Where nothing was cut off, an average is not below the shortest success. -/
lemma Gathers.exists_le_average (hg : Gathers t latencies) (hfew : latencies.length < 2 ^ 64)
    (hsum : (latencies.map (·.nanos)).sum < Duration.limit)
    (hmean : (latencies.map (·.nanos)).sum / latencies.length < 2 ^ 64) (ha : t.average = some a) :
    ∃ d ∈ latencies, d.nanos ≤ a.nanos := by
  have heq : a.nanos = (latencies.map (·.nanos)).sum / latencies.length := by
    rw [hg.average_eq hfew ha, min_eq_left (Nat.le_sub_one_of_lt hsum), min_eq_left (Nat.le_sub_one_of_lt hmean)]
  have hlt : (latencies.map (·.nanos)).sum < (latencies.map fun _ => a.nanos + 1).sum := by
    rw [List.map_const', List.sum_replicate, smul_eq_mul, heq]
    exact Nat.lt_mul_div_succ _ (List.length_pos_of_ne_nil (hg.ne_nil_of_average ha))
  obtain ⟨d, hd, hle⟩ := List.exists_lt_of_sum_lt (fun d : Duration => d.nanos) (fun _ => a.nanos + 1) hlt
  exact ⟨d, hd, Nat.le_of_lt_succ hle⟩

lemma map_valueOf (latencies : List Duration) :
    latencies.map valueOf = latencies.map fun d => if d.micros < 2 ^ 32 then max 1 d.micros else hour := by
  apply List.map_congr_left
  intro d _
  split
  · next h => exact valueOf_eq h
  · next h => exact valueOf_eq_hour (Nat.not_lt.mp h)

/-- What a tally shows after a history of fewer than `2 ^ 64` events: the numbers of dispatches, successes and failures, where
results that do not outrun dispatches leave something in flight whenever the next one comes; the sum of the latencies of its
successes, cut off at the largest duration; their average, in whole nanoseconds and cut off at the largest count, which is
there as soon as anything succeeded, is never above the longest success, and not below the shortest one if nothing was cut
off; a histogram of the latencies in microseconds, at least one of them and an hour from `2 ^ 32` on; and the time since the
start, which is none before it. -/
theorem aggregate_in_closed_form (history : List Event) (hfew : history.length < 2 ^ 64) (started now : ℕ)
    (hnow : now < Duration.limit) (inFlight tick : ℕ) :
    let t := after history
    let latencies := successes history
    let sum := (latencies.map (·.nanos)).sum
    let mean := min sum (Duration.limit - 1) / latencies.length
    t.sent = history.count .dispatched ∧ t.completed = latencies.length ∧
    t.failed = history.countP Event.isFailure ∧
    (Paced history → ∀ n o, history[n]? = some (.ended o) →
      (after (history.take n)).completed + (after (history.take n)).failed < (after (history.take n)).sent) ∧
    t.totalLatency.nanos = min sum (Duration.limit - 1) ∧
    (t.average = none ↔ latencies = []) ∧
    (∀ a, t.average = some a →
      a.nanos = min mean (2 ^ 64 - 1) ∧ (∃ d ∈ latencies, a.nanos ≤ d.nanos) ∧
      (sum < Duration.limit → mean < 2 ^ 64 → ∃ d ∈ latencies, d.nanos ≤ a.nanos)) ∧
    t.latencies.Counts (latencies.map fun d => if d.micros < 2 ^ 32 then max 1 d.micros else hour) ∧
    ((t.snapshot started now inFlight tick).elapsed.nanos : ℤ) = max 0 ((now : ℤ) - started) := by
  intro t latencies sum mean
  have hg : Gathers t latencies := after_gathers history
  have hlatencies : latencies.length < 2 ^ 64 := (List.length_filterMap_le _ _).trans_lt hfew
  refine ⟨after_sent hfew, after_completed hfew, after_failed hfew, fun hpaced n o hn => ?_, hg.total,
    hg.average_eq_none_iff, fun a ha => ⟨hg.average_eq hlatencies ha, hg.exists_average_le hlatencies ha, ?_⟩,
    map_valueOf latencies ▸ hg.counts, Clock.since_nanos hnow⟩
  · have htake : (history.take n).length < 2 ^ 64 := (List.length_take_le' _ _).trans_lt hfew
    rw [after_sent htake, after_completed htake, after_failed htake, length_successes_add]
    exact hpaced.countP_lt hn
  · intro hsum hmean
    have hcut : mean = sum / latencies.length := by
      show min sum _ / _ = _
      rw [min_eq_left (Nat.le_sub_one_of_lt hsum)]
    exact hg.exists_le_average hlatencies hsum (hcut ▸ hmean) ha

/-- Two successes as long as can be, with a failure between them: both their sum and their average are cut off, the average
far below either of them. The snapshot was taken before the start. -/
theorem average_of_longest_is_cut_off :
    let longest := Duration.clamp (Duration.limit - 1)
    let history : List Event := [.dispatched, .dispatched, .ended (.success longest), .dispatched,
      .ended (.failure longest), .ended (.success longest)]
    Paced history ∧ ∃ a, (after history).average = some a ∧ a.nanos = 2 ^ 64 - 1 ∧ a.nanos < longest.nanos ∧
      (after history).sent = 3 ∧ (after history).completed = 2 ∧ (after history).failed = 1 ∧
      ((after history).snapshot 5 3 0 1).elapsed.nanos = 0 := by
  intro longest history
  have hpaced : Paced history := by
    unfold Paced
    decide
  obtain ⟨hsent, hcompleted, hfailed, _, _, hnone, haverage, _, helapsed⟩ :=
    aggregate_in_closed_form history (by decide) 5 3 (by decide) 0 1
  obtain ⟨a, ha⟩ := Option.ne_none_iff_exists'.mp (mt hnone.mp (by decide))
  obtain ⟨heq, _⟩ := haverage a ha
  refine ⟨hpaced, a, ha, heq.trans (by decide), ?_, hsent, hcompleted, hfailed,
    Int.ofNat_eq_zero.mp (helapsed.trans (by decide))⟩
  rw [heq]
  decide

end Tally
end Cadence
