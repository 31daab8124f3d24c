import Cadence.Proofs.Report.Figure
import Cadence.Proofs.Tally.Percentile
import Mathlib.Algebra.Group.Action.Defs

/-!
# The figures of a tally belong together

A tally counts its successes twice, by a number and by a histogram, and adds up their latencies besides. The three agree: all
figures are there or none (`Gathers.figures_none`, `Gathers.figures_some`), percentiles are in the order of their quantiles and
none is above the maximum (`Gathers.percentile_mono`, `Gathers.percentile_le_maximum`), and the average, which is not cut to
microseconds, exceeds the maximum by less than one (`Gathers.average_lt`).

* `figures_are_coherent`: all of this after every history.
-/

namespace Cadence.Tally

open Latency

variable {t : Tally} {latencies : List Duration} {q q' : Float} {p p' m : Duration}

lemma Gathers.completed_eq (hg : Gathers t latencies) (hfew : latencies.length < 2 ^ 53) :
    t.completed = latencies.length := by
  rw [hg.completed]
  exact Count.cap_eq (hfew.le.trans (by decide))

lemma Gathers.figures_none (hg : Gathers t []) (started now inFlight tick : ℕ) :
    let s := t.snapshot started now inFlight tick
    ∀ figure ∈ [s.average, s.p50, s.p90, s.p99, s.maximum], figure = none := by
  have havg : t.average = none := (average_eq_none_iff t).mpr hg.completed
  have hempty : t.latencies.isEmpty = true := hg.isEmpty_iff.mpr rfl
  simp only [snapshot, percentile, maximum, havg, if_pos hempty, Option.map_none, List.forall_mem_cons, true_and]
  exact List.forall_mem_nil _

lemma Gathers.figures_some (hg : Gathers t latencies) (hsome : latencies ≠ []) (hfew : latencies.length < 2 ^ 53)
    (started now inFlight tick : ℕ) :
    let s := t.snapshot started now inFlight tick
    ∀ figure ∈ [s.average, s.p50, s.p90, s.p99, s.maximum], ∃ ms, figure = some ms ∧ ms.isFinite = true := by
  have hcompleted : t.completed ≠ 0 := by
    rw [hg.completed_eq hfew]
    exact (List.length_pos_of_ne_nil hsome).ne'
  have hfull : ¬ t.latencies.isEmpty = true := mt hg.isEmpty_iff.mp hsome
  have hmillis : ∀ d : Duration, ∃ ms, some d.toMillis = some ms ∧ ms.isFinite = true :=
    fun d => ⟨_, rfl, Double.toMillis_isFinite d⟩
  simp only [snapshot, average, percentile, maximum, if_neg hcompleted, if_neg hfull, Option.map_some, List.forall_mem_cons]
  exact ⟨hmillis _, hmillis _, hmillis _, hmillis _, hmillis _, List.forall_mem_nil _⟩

lemma Gathers.exists_maximum (hg : Gathers t latencies) (hsome : latencies ≠ []) :
    ∃ v, ranked latencies.length (latencies.map valueOf) = some v ∧ v < 2 ^ 32 ∧
      t.maximum = some (Duration.ofMicros (levelTop v)) := by
  obtain ⟨v, hv, hlt⟩ := exists_ranked_value (List.length_pos_of_ne_nil hsome) le_rfl
  exact ⟨v, hv, hlt, hg.maximum_eq hv⟩

/-- There are figures only if something succeeded. -/
lemma Gathers.ne_nil_of_percentile (hg : Gathers t latencies) (hp : t.percentile q = some p) : latencies ≠ [] := by
  intro hnil
  rw [percentile, if_pos (hg.isEmpty_iff.mpr hnil)] at hp
  cases hp

lemma Gathers.ne_nil_of_maximum (hg : Gathers t latencies) (hm : t.maximum = some m) : latencies ≠ [] := by
  intro hnil
  rw [maximum, if_pos (hg.isEmpty_iff.mpr hnil)] at hm
  cases hm

/-- A percentile is the top of the level of the value of its rank. -/
lemma Gathers.percentile_inv (hg : Gathers t latencies) (hfew : latencies.length < 2 ^ 53) (hpos : 0.0 < q)
    (hone : q ≤ 1.0) (hp : t.percentile q = some p) :
    ∃ v, ranked (Histogram.rank q latencies.length) (latencies.map valueOf) = some v ∧ v < 2 ^ 32 ∧
      p = Duration.ofMicros (levelTop v) := by
  have hle := Histogram.rank_le hpos hone (List.length_pos_of_ne_nil (hg.ne_nil_of_percentile hp)) hfew
  obtain ⟨v, hv, hlt⟩ := exists_ranked_value (Histogram.rank_pos q _) hle
  have heq := hg.percentile_eq (ne_zero_of_pos hpos hone) hv
  exact ⟨v, hv, hlt, Option.some_inj.mp (hp.symm.trans heq)⟩

lemma Gathers.maximum_inv (hg : Gathers t latencies) (hm : t.maximum = some m) :
    ∃ v, ranked latencies.length (latencies.map valueOf) = some v ∧ v < 2 ^ 32 ∧ m = Duration.ofMicros (levelTop v) := by
  obtain ⟨v, hv, hlt, heq⟩ := hg.exists_maximum (hg.ne_nil_of_maximum hm)
  exact ⟨v, hv, hlt, Option.some_inj.mp (hm.symm.trans heq)⟩

lemma ofMicros_levelTop_mono {v w : ℕ} (hvw : v ≤ w) (hw : w < 2 ^ 32) :
    (Duration.ofMicros (levelTop v)).nanos ≤ (Duration.ofMicros (levelTop w)).nanos := by
  rw [Duration.ofMicros_nanos (levelTop_lt (hvw.trans_lt hw)), Duration.ofMicros_nanos (levelTop_lt hw)]
  exact Nat.mul_le_mul_right _ (levelTop_mono hvw)

theorem Gathers.percentile_mono (hg : Gathers t latencies) (hfew : latencies.length < 2 ^ 53) (hpos : 0.0 < q)
    (hqq : q ≤ q') (hone : q' ≤ 1.0) (hp : t.percentile q = some p) (hp' : t.percentile q' = some p') :
    p.nanos ≤ p'.nanos := by
  have hsome := hg.ne_nil_of_percentile hp
  have hq : q ≤ 1.0 := Double.le_trans_of_pos hpos hqq hone Double.is_one
  obtain ⟨v, hv, _, rfl⟩ := hg.percentile_inv hfew hpos hq hp
  obtain ⟨w, hw, hlt, rfl⟩ := hg.percentile_inv hfew (Double.pos_of_pos_of_le hpos hqq) hone hp'
  have hrank := Histogram.rank_mono hpos hqq hone (List.length_pos_of_ne_nil hsome) hfew
  exact ofMicros_levelTop_mono (ranked_mono_rank (Histogram.rank_pos q _) hrank hv hw) hlt

theorem Gathers.percentile_le_maximum (hg : Gathers t latencies) (hfew : latencies.length < 2 ^ 53) (hpos : 0.0 < q)
    (hone : q ≤ 1.0) (hp : t.percentile q = some p) (hm : t.maximum = some m) : p.nanos ≤ m.nanos := by
  obtain ⟨v, hv, _, rfl⟩ := hg.percentile_inv hfew hpos hone hp
  obtain ⟨w, hw, hlt, rfl⟩ := hg.maximum_inv hm
  have hrank := Histogram.rank_le hpos hone (List.length_pos_of_ne_nil (hg.ne_nil_of_percentile hp)) hfew
  exact ofMicros_levelTop_mono (ranked_mono_rank (Histogram.rank_pos q _) hrank hv hw) hlt

/-- The average is never more than the average of the latencies, also where their sum stops at the largest duration. -/
lemma Gathers.average_le {a : Duration} (hg : Gathers t latencies) (ha : t.average = some a) :
    a.nanos ≤ (latencies.map (·.nanos)).sum / t.completed := by
  unfold average at ha
  split at ha
  · cases ha
  · obtain rfl := Option.some_inj.mp ha
    calc (Duration.clamp (Count.cap (t.totalLatency.nanos / t.completed))).nanos
        ≤ Count.cap (t.totalLatency.nanos / t.completed) := (Duration.clamp_eq_min _).trans_le (min_le_left _ _)
      _ ≤ t.totalLatency.nanos / t.completed := min_le_left _ _
      _ ≤ (latencies.map (·.nanos)).sum / t.completed := Nat.div_le_div_right (hg.total.trans_le (min_le_left _ _))

/-- A latency is cut to microseconds in the histogram, but not in the average. -/
theorem Gathers.average_lt {a : Duration} (hg : Gathers t latencies) (hfew : latencies.length < 2 ^ 53)
    (hsmall : ∀ d ∈ latencies, d.micros < 2 ^ 32) (ha : t.average = some a) (hm : t.maximum = some m) :
    a.nanos < m.nanos + 1000 := by
  obtain ⟨v, hv, hlt, rfl⟩ := hg.maximum_inv hm
  rw [Duration.ofMicros_nanos (levelTop_lt hlt)]
  -- every latency is in the level of the slowest one or in one below, but for what its microseconds cut off
  have hbound : ∀ n ∈ latencies.map (·.nanos), n ≤ levelTop v * 1000 + 999 := by
    intro n hn
    obtain ⟨d, hd, rfl⟩ := List.mem_map.mp hn
    have hle : valueOf d ≤ v := le_of_ranked_length (List.length_map valueOf ▸ hv) (List.mem_map_of_mem hd)
    have htop := hle.trans (le_levelTop v)
    rw [valueOf_eq (hsmall d hd), Duration.micros] at htop
    omega
  have hsum : (latencies.map (·.nanos)).sum ≤ latencies.length * (levelTop v * 1000 + 999) := by
    have hcard := List.sum_le_card_nsmul _ _ hbound
    rwa [List.length_map, smul_eq_mul] at hcard
  have hle := hg.average_le ha
  rw [hg.completed_eq hfew] at hle
  have hquotient : (latencies.map (·.nanos)).sum / latencies.length ≤ levelTop v * 1000 + 999 :=
    Nat.div_le_of_le_mul hsum
  omega

/-- The figures of every history with fewer than `2 ^ 53` successes belong together: the histogram holds what is counted as
completed; all figures are absent if nothing succeeded, and present and shown as numbers otherwise; percentiles are in order
and do not exceed the maximum; the average exceeds it by less than a microsecond, as long as every success took less than
`2 ^ 32` of them. -/
theorem figures_are_coherent (history : List Event) (hfew : (successes history).length < 2 ^ 53)
    (started now inFlight tick : ℕ) :
    let t := after history
    let s := t.snapshot started now inFlight tick
    let figures := [s.average, s.p50, s.p90, s.p99, s.maximum]
    t.completed = (successes history).length ∧ t.latencies.total = t.completed ∧
    (t.completed = 0 → ∀ figure ∈ figures, figure = none) ∧
    (t.completed ≠ 0 → ∀ figure ∈ figures, figure.isSome = true) ∧
    (Report.latencyLine s = "  latency: n/a\n" ↔ t.completed = 0) ∧
    (t.completed ≠ 0 → '/' ∉ (Report.latencyLine s).toList) ∧
    (∀ p50 ∈ t.percentile 0.50, ∀ p90 ∈ t.percentile 0.90, ∀ p99 ∈ t.percentile 0.99, ∀ m ∈ t.maximum,
      p50.micros ≤ p90.micros ∧ p90.micros ≤ p99.micros ∧ p99.micros ≤ m.micros) ∧
    ((∀ d ∈ successes history, d.micros < 2 ^ 32) →
      ∀ a ∈ t.average, ∀ m ∈ t.maximum, a.nanos < m.nanos + 1000) := by
  intro t s figures
  have hg : Gathers t (successes history) := after_gathers history
  have hcompleted := hg.completed_eq hfew
  have hnone : t.completed = 0 → ∀ figure ∈ figures, figure = none := by
    intro hzero
    rw [hcompleted, List.length_eq_zero_iff] at hzero
    exact (hzero ▸ hg).figures_none started now inFlight tick
  have hsome : t.completed ≠ 0 → ∀ figure ∈ figures, ∃ ms, figure = some ms ∧ ms.isFinite = true := by
    intro hpos
    rw [hcompleted, Ne, List.length_eq_zero_iff] at hpos
    exact hg.figures_some hpos hfew started now inFlight tick
  refine ⟨hcompleted, hg.total_eq.trans hcompleted.symm, hnone, fun hpos figure hmem => ?_, ?_,
    fun hpos => Report.slash_not_mem_latencyLine (hsome hpos), ?_, ?_⟩
  · obtain ⟨ms, rfl, _⟩ := hsome hpos figure hmem
    rfl
  · exact Report.latencyLine_eq_iff.trans (Option.map_eq_none_iff.trans (average_eq_none_iff t))
  · intro p50 h50 p90 h90 p99 h99 m hm
    have hone : (0.99 : Float) ≤ 1.0 := by decide +kernel
    have hninety : (0.90 : Float) ≤ 1.0 := by decide +kernel
    refine ⟨Nat.div_le_div_right ?_, Nat.div_le_div_right ?_, Nat.div_le_div_right ?_⟩
    · exact hg.percentile_mono hfew (by decide +kernel) (by decide +kernel) hninety h50 h90
    · exact hg.percentile_mono hfew (by decide +kernel) (by decide +kernel) hone h90 h99
    · exact hg.percentile_le_maximum hfew (by decide +kernel) hone h99 hm
  · intro hsmall a ha m hm
    exact hg.average_lt hfew hsmall ha hm

/-- The bound on the average is tight: a single success of 1999 nanoseconds is its own average, while the maximum is one
microsecond. -/
theorem average_exceeds_maximum_slightly :
    let t := after [.dispatched, .ended (.success (.clamp 1999))]
    ∃ a m, t.average = some a ∧ t.maximum = some m ∧ m.nanos < a.nanos ∧ a.nanos < m.nanos + 1000 := by
  intro t
  have ha : t.average = some (.clamp 1999) := by decide +kernel
  have hm : t.maximum = some (.ofMicros 1) := by decide +kernel
  have hcoherent := figures_are_coherent [.dispatched, .ended (.success (.clamp 1999))] (by decide) 0 5 0 1
  obtain ⟨_, _, _, _, _, _, _, haverage⟩ := hcoherent
  exact ⟨_, _, ha, hm, by decide, haverage (by decide) _ ha _ hm⟩

end Cadence.Tally
