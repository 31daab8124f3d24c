import Cadence.Proofs.Latency.Histogram
import Cadence.Proofs.Tally
import Cadence.Tally.History

/-!
# Percentiles of a tally

After every history the tally holds its successes (`Gathers`): how many there were, how long they took together, and the
level of each. Its percentiles are therefore tops of levels (`Gathers.percentile_eq`), and its maximum is the top of the
level of the slowest success (`Gathers.maximum_eq`).

* `percentile_is_nearest_rank`: which value a percentile shows, and how far it is off.
-/

namespace Cadence

namespace Latency

variable {d : Duration}

lemma valueOf_pos (d : Duration) : 0 < valueOf d := by
  simp only [valueOf]
  split
  · omega
  · decide

lemma valueOf_lt (d : Duration) : valueOf d < 2 ^ 32 := by
  simp only [valueOf]
  split
  · next h => exact h
  · decide

/-- A latency below `2 ^ 32` microseconds is recorded as it is, one that is shorter than a microsecond as one. -/
lemma valueOf_eq (h : d.micros < 2 ^ 32) : valueOf d = max 1 d.micros := by
  unfold valueOf
  rw [Count.cap_eq (Nat.le_trans h.le (by decide))]
  exact if_pos (Nat.max_lt.mpr ⟨by decide, h⟩)

/-- A latency from `2 ^ 32` microseconds on is recorded as an hour. -/
lemma valueOf_eq_hour (h : 2 ^ 32 ≤ d.micros) : valueOf d = hour := by
  have hcap : valueLimit ≤ Count.cap d.micros := le_min h (by decide)
  unfold valueOf
  exact if_neg (Nat.not_lt.mpr (hcap.trans (Nat.le_max_right 1 _)))

lemma levelTop_lt {v : ℕ} (h : v < 2 ^ 32) : levelTop v < 2 ^ 32 := by
  have hlog : v.log2 ≤ 32 := (log2_mono h.le).trans (by decide)
  exact levelTop_lt_of_dvd (levelWidth_dvd_two_pow hlog) h

end Latency

lemma Duration.ofMicros_nanos {n : ℕ} (h : n < 2 ^ 32) : (ofMicros n).nanos = n * 1000 := by
  apply clamp_nanos
  unfold limit
  omega

lemma Duration.micros_ofMicros {n : ℕ} (h : n < 2 ^ 32) : (ofMicros n).micros = n := by
  unfold micros
  rw [ofMicros_nanos h, Nat.mul_div_cancel n (by decide)]

namespace Tally

open Latency

variable {t : Tally} {latencies : List Duration} {history : List Event} {q : Float}

/-- A tally that holds some successes and no others. -/
structure Gathers (t : Tally) (latencies : List Duration) : Prop where
  completed : t.completed = Count.cap latencies.length
  total : t.totalLatency.nanos = min (latencies.map (·.nanos)).sum (Duration.limit - 1)
  counts : t.latencies.Counts (latencies.map valueOf)

lemma gathers_empty : Gathers empty [] := ⟨rfl, rfl, Histogram.counts_empty⟩

/-- A tally gathers the success that it is told of, and nothing else. -/
lemma Gathers.follow (hg : Gathers t latencies) (e : Event) :
    Gathers (t.follow e) (latencies ++ e.latency?.toList) := by
  cases e with
  | dispatched =>
    rw [Event.latency?, Option.toList_none, List.append_nil]
    exact ⟨hg.completed, hg.total, hg.counts⟩
  | ended o =>
    show Gathers (t.record o) _
    cases h : o.succeeded with
    | false =>
      have hnone : (Event.ended o).latency? = none := if_neg (by rw [h]; exact Bool.false_ne_true)
      rw [record_failure h, hnone, Option.toList_none, List.append_nil]
      exact ⟨hg.completed, hg.total, hg.counts⟩
    | true =>
      have hsome : (Event.ended o).latency? = some o.latency := if_pos h
      rw [record_success h, hsome, Option.toList_some]
      constructor
      · show Count.next t.completed = _
        rw [hg.completed, Count.next_cap, List.length_append, List.length_singleton]
      · show (t.totalLatency + o.latency).nanos = _
        rw [Duration.add_nanos, hg.total, List.map_append, List.sum_append, List.map_singleton, List.sum_singleton]
        omega
      · show (t.latencies.record (valueOf o.latency)).Counts _
        rw [List.map_append]
        exact (hg.counts.record _).of_perm (List.perm_append_singleton _ _).symm

lemma Gathers.foldl (hg : Gathers t latencies) (history : List Event) :
    Gathers (history.foldl Tally.follow t) (latencies ++ successes history) := by
  induction history generalizing t latencies with
  | nil => rwa [successes, List.filterMap_nil, List.append_nil]
  | cons e history ih =>
    have hsplit : latencies ++ successes (e :: history) = latencies ++ e.latency?.toList ++ successes history := by
      rw [List.append_assoc, successes, List.filterMap_cons]
      cases e.latency? <;> rfl
    rw [hsplit]
    exact ih (hg.follow e)

/-- After every history a tally holds its successes. -/
theorem after_gathers (history : List Event) : Gathers (after history) (successes history) :=
  gathers_empty.foldl history

lemma Gathers.isEmpty_iff (hg : Gathers t latencies) : t.latencies.isEmpty = true ↔ latencies = [] := by
  rw [hg.counts.isEmpty_iff, List.map_eq_nil_iff]

lemma Gathers.total_eq (hg : Gathers t latencies) : t.latencies.total = latencies.length := by
  rw [hg.counts.total_eq, List.length_map]

lemma Gathers.percentile_eq_getD (hg : Gathers t latencies) (hsome : latencies ≠ []) (q : Float) :
    t.percentile q = some (Duration.ofMicros
      (((ranked (Histogram.rank q latencies.length) (latencies.map valueOf)).map
        (if q == 0.0 then levelLow else levelTop)).getD 0)) := by
  rw [percentile, if_neg (mt hg.isEmpty_iff.mp hsome), hg.counts.quantile_eq, List.length_map]

lemma ne_nil_of_ranked {c v : ℕ} (hv : ranked c (latencies.map valueOf) = some v) : latencies ≠ [] := by
  rintro rfl
  exact absurd (mem_of_ranked hv) List.not_mem_nil

lemma Gathers.percentile_eq {v : ℕ} (hg : Gathers t latencies) (hq : (q == 0.0) = false)
    (hv : ranked (Histogram.rank q latencies.length) (latencies.map valueOf) = some v) :
    t.percentile q = some (Duration.ofMicros (levelTop v)) := by
  rw [hg.percentile_eq_getD (ne_nil_of_ranked hv), hv, hq]
  rfl

lemma Gathers.maximum_eq {v : ℕ} (hg : Gathers t latencies)
    (hv : ranked latencies.length (latencies.map valueOf) = some v) :
    t.maximum = some (Duration.ofMicros (levelTop v)) := by
  have hsome := ne_nil_of_ranked hv
  rw [← List.length_map] at hv
  rw [maximum, if_neg (mt hg.isEmpty_iff.mp hsome), hg.counts.maximum_eq hv]

/-- There is a value of every rank up to the number of successes, and all values are far from the largest duration. -/
lemma exists_ranked_value {c : ℕ} (hc : 0 < c) (hle : c ≤ latencies.length) :
    ∃ v, ranked c (latencies.map valueOf) = some v ∧ v < 2 ^ 32 := by
  obtain ⟨v, hv⟩ := exists_ranked hc (hle.trans_eq (List.length_map valueOf).symm)
  obtain ⟨d, _, rfl⟩ := List.mem_map.mp (mem_of_ranked hv)
  exact ⟨_, hv, valueOf_lt d⟩

lemma ne_zero_of_pos (hq : 0.0 < q) (hone : q ≤ 1.0) : (q == 0.0) = false := by
  obtain ⟨x, hx, hpos, _⟩ := Double.is_of_pos_of_le hq hone Double.is_one
  rw [Bool.eq_false_iff]
  exact mt (Double.beq_iff hx Double.is_zero).mp hpos.ne'

/-- A percentile shows the value whose rank its quantile asks for: the top of the level of that value, which counting up
always reaches. As long as all successes took less than `2 ^ 32` microseconds, the value is how long the success of that
rank took, and the percentile is off by less than a part in 1024. -/
theorem percentile_is_nearest_rank (history : List Event) (q : Float) (hsome : successes history ≠ [])
    (hfew : (successes history).length < 2 ^ 53) (hpos : 0.0 < q) (hone : q ≤ 1.0) :
    let n := (successes history).length
    let c := Histogram.rank q n
    (after history).latencies.total = n ∧ 1 ≤ c ∧ c ≤ n ∧
    (∃ v p, ranked c ((successes history).map valueOf) = some v ∧
      Histogram.levelAt c (after history).latencies.levels = some (levelLow v) ∧ levelLow v ≤ v ∧ v ≤ levelTop v ∧
      (after history).percentile q = some p ∧ p.nanos = levelTop v * 1000) ∧
    ((∀ d ∈ successes history, d.micros < 2 ^ 32) →
      ∃ v p, ranked c ((successes history).map fun d => max 1 d.micros) = some v ∧
        (after history).percentile q = some p ∧ v ≤ p.micros ∧ (p.micros - v) * 1024 < v ∧
        (v < 2048 → p.micros = v)) := by
  intro n c
  have hg := after_gathers history
  have hc : 0 < c := Histogram.rank_pos q n
  have hle : c ≤ n := Histogram.rank_le hpos hone (List.length_pos_of_ne_nil hsome) hfew
  obtain ⟨v, hv, hlt⟩ := exists_ranked_value hc hle
  have hpercentile := hg.percentile_eq (ne_zero_of_pos hpos hone) hv
  have hlevel := hg.counts.levelAt_eq hc
  rw [hv] at hlevel
  refine ⟨hg.total_eq, hc, hle, ⟨v, _, hv, hlevel, levelLow_le v, le_levelTop v, hpercentile, ?_⟩, fun hsmall => ?_⟩
  · exact Duration.ofMicros_nanos (levelTop_lt hlt)
  · have hvalues : ((successes history).map fun d => max 1 d.micros) = (successes history).map valueOf :=
      List.map_congr_left fun d hd => (valueOf_eq (hsmall d hd)).symm
    obtain ⟨d, _, hd⟩ := List.mem_map.mp (mem_of_ranked hv)
    refine ⟨v, _, hvalues ▸ hv, hpercentile, ?_⟩
    rw [Duration.micros_ofMicros (levelTop_lt hlt)]
    exact ⟨le_levelTop v, levelTop_sub_lt (hd ▸ valueOf_pos d), levelTop_eq_self⟩

/-- The median of three successes is the second one. -/
theorem median_of_three_is_second :
    let history : List Event := [1, 2000, 5000].flatMap fun us => [.dispatched, .ended (.success (.ofMicros us))]
    ∃ p, (after history).percentile 0.50 = some p ∧ p.micros = 2000 := by
  intro history
  have hmedian := percentile_is_nearest_rank history 0.50 (by decide) (by decide) (by decide +kernel) (by decide +kernel)
  obtain ⟨v, p, hv, hp, _, _, hexact⟩ := hmedian.2.2.2.2 (by decide)
  have hrank : Histogram.rank 0.50 3 = 2 := by decide +kernel
  have hvalues : (successes history).map (fun d => max 1 d.micros) = [1, 2000, 5000] := by decide
  have hsecond : ranked 2 [1, 2000, 5000] = some 2000 := by
    unfold ranked
    rw [List.mergeSort_eq_self _ (by decide)]
    rfl
  rw [show (successes history).length = 3 from rfl, hrank, hvalues, hsecond, Option.some_inj] at hv
  subst hv
  exact ⟨p, hp, hexact (by decide)⟩

end Tally
end Cadence
