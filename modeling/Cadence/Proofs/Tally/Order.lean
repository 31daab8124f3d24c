import Cadence.Proofs.Tally.Figures
import Mathlib.Data.List.Forall2

/-!
# Slower operations in the figures of a tally

Latencies from `2 ^ 32` microseconds on are recorded as an hour, while those between an hour and that bound are recorded as
they are (`Unclamped`). So the figures of slower operations are at least as large, unless a latency of the second kind is
replaced by one of the first (`levelTop_valueOf_le_iff`).

* `slower_looks_slower_unless_clamped`: both for all percentiles and the maximum of whole histories.
-/

namespace Cadence

namespace Latency

/-- A latency that is recorded as it is although it is longer than all that are recorded as an hour. -/
def Unclamped (d : Duration) : Prop := levelTop hour < d.micros ∧ d.micros < 2 ^ 32

instance : DecidablePred Unclamped := fun _ => instDecidableAnd

variable {d d' : Duration}

/-- Of two latencies the slower one is in a level that is not below, unless it alone is recorded as an hour. -/
theorem levelTop_valueOf_le_iff (h : d.nanos ≤ d'.nanos) :
    levelTop (valueOf d) ≤ levelTop (valueOf d') ↔ ¬ (Unclamped d ∧ 2 ^ 32 ≤ d'.micros) := by
  have hmicros : d.micros ≤ d'.micros := Nat.div_le_div_right h
  -- which of the two is recorded as an hour
  rcases Nat.lt_or_ge d'.micros (2 ^ 32) with hsmall' | hbig'
  · rw [valueOf_eq (hmicros.trans_lt hsmall'), valueOf_eq hsmall']
    exact iff_of_true (levelTop_mono (max_le_max le_rfl hmicros)) (by omega)
  · rw [valueOf_eq_hour hbig']
    rcases Nat.lt_or_ge d.micros (2 ^ 32) with hsmall | hbig
    · have hhour : 1 ≤ levelTop hour := (show 1 ≤ hour by decide).trans (le_levelTop hour)
      rw [valueOf_eq hsmall, levelTop_le_levelTop_iff, max_le_iff, Unclamped]
      omega
    · rw [valueOf_eq_hour hbig]
      exact iff_of_true le_rfl (fun hd => absurd hd.1.2 (by omega))

end Latency

lemma Duration.ofMicros_mono {m n : ℕ} (h : m ≤ n) : (ofMicros m).nanos ≤ (ofMicros n).nanos := by
  simp only [ofMicros, clamp_eq_min]
  omega

namespace Tally

open Latency

variable {t t' : Tally} {latencies latencies' : List Duration} {q : Float} {c : ℕ} {f : ℕ → ℕ}

/-- What is shown at a rank is larger if all latencies are in levels that are not below. -/
lemma ofMicros_ranked_mono (hf : Monotone f) (hc : 0 < c)
    (h : List.Forall₂ (fun d d' => f (valueOf d) ≤ f (valueOf d')) latencies latencies') :
    (Duration.ofMicros (((ranked c (latencies.map valueOf)).map f).getD 0)).nanos
      ≤ (Duration.ofMicros (((ranked c (latencies'.map valueOf)).map f).getD 0)).nanos := by
  apply Duration.ofMicros_mono
  rw [← ranked_map hf, ← ranked_map hf]
  apply getD_ranked_mono hc
  rw [List.map_map, List.map_map, List.forall₂_map_left_iff, List.forall₂_map_right_iff]
  exact h

theorem Gathers.percentile_le (hg : Gathers t latencies) (hg' : Gathers t' latencies')
    (h : List.Forall₂ (fun d d' => levelTop (valueOf d) ≤ levelTop (valueOf d')) latencies latencies') (q : Float) :
    Option.Rel (fun p p' => p.nanos ≤ p'.nanos) (t.percentile q) (t'.percentile q) := by
  rcases eq_or_ne latencies [] with rfl | hsome
  · obtain rfl := List.forall₂_nil_left_iff.mp h
    rw [percentile, percentile, if_pos (hg.isEmpty_iff.mpr rfl), if_pos (hg'.isEmpty_iff.mpr rfl)]
    exact .none
  · have hsome' : latencies' ≠ [] := List.ne_nil_of_length_pos (h.length_eq ▸ List.length_pos_of_ne_nil hsome)
    rw [hg.percentile_eq_getD hsome, hg'.percentile_eq_getD hsome', ← h.length_eq]
    apply Option.Rel.some
    cases q == 0.0 with
    | true => exact ofMicros_ranked_mono levelLow_mono (Histogram.rank_pos q _) (h.imp fun _ _ => levelLow_le_of_levelTop_le)
    | false => exact ofMicros_ranked_mono levelTop_mono (Histogram.rank_pos q _) h

theorem Gathers.maximum_le (hg : Gathers t latencies) (hg' : Gathers t' latencies')
    (h : List.Forall₂ (fun d d' => levelTop (valueOf d) ≤ levelTop (valueOf d')) latencies latencies') :
    Option.Rel (fun m m' => m.nanos ≤ m'.nanos) t.maximum t'.maximum := by
  rcases eq_or_ne latencies [] with rfl | hsome
  · obtain rfl := List.forall₂_nil_left_iff.mp h
    rw [maximum, maximum, if_pos (hg.isEmpty_iff.mpr rfl), if_pos (hg'.isEmpty_iff.mpr rfl)]
    exact .none
  · have hsome' : latencies' ≠ [] := List.ne_nil_of_length_pos (h.length_eq ▸ List.length_pos_of_ne_nil hsome)
    obtain ⟨v, hv, _, heq⟩ := hg.exists_maximum hsome
    obtain ⟨v', hv', _, heq'⟩ := hg'.exists_maximum hsome'
    rw [heq, heq']
    apply Option.Rel.some
    have hranked := ofMicros_ranked_mono levelTop_mono (List.length_pos_of_ne_nil hsome) h
    rw [hv, h.length_eq, hv'] at hranked
    exact hranked

/-- All values that are recorded of latencies of the one kind are above the one that stands for all of the other kind. -/
lemma levelTop_lt_of_unclamped {v v' : ℕ} (hclose : ∀ d ∈ latencies, Unclamped d)
    (hfar : ∀ d ∈ latencies', 2 ^ 32 ≤ d.micros) (hv : v ∈ latencies.map valueOf) (hv' : v' ∈ latencies'.map valueOf) :
    levelTop v' < levelTop v := by
  obtain ⟨d, hd, rfl⟩ := List.mem_map.mp hv
  obtain ⟨d', hd', rfl⟩ := List.mem_map.mp hv'
  obtain ⟨habove, hbelow⟩ := hclose d hd
  rw [valueOf_eq_hour (hfar d' hd'), valueOf_eq hbelow]
  exact (habove.trans_le (Nat.le_max_right 1 _)).trans_le (le_levelTop _)

lemma ofMicros_levelTop_lt {v v' : ℕ} (h : levelTop v' < levelTop v) (hv : v < 2 ^ 32) :
    (Duration.ofMicros (levelTop v')).nanos < (Duration.ofMicros (levelTop v)).nanos := by
  rw [Duration.ofMicros_nanos (levelTop_lt hv), Duration.ofMicros_nanos (h.trans (levelTop_lt hv))]
  omega

/-- Whatever two histories have as many successes, each of the second one at least as slow as the one of the first at its
place: its percentiles and its maximum are at least as large, unless somewhere a latency is recorded as an hour that
replaces a shorter one which is recorded as it is and longer than an hour. Where all do, all figures are smaller. -/
theorem slower_looks_slower_unless_clamped (history history' : List Event)
    (hslower : List.Forall₂ (fun d d' => d.nanos ≤ d'.nanos) (successes history) (successes history')) :
    (List.Forall₂ (fun d d' => ¬ (Unclamped d ∧ 2 ^ 32 ≤ d'.micros)) (successes history) (successes history') →
      (∀ q, Option.Rel (fun p p' => p.nanos ≤ p'.nanos) ((after history).percentile q) ((after history').percentile q)) ∧
      Option.Rel (fun m m' => m.nanos ≤ m'.nanos) (after history).maximum (after history').maximum) ∧
    ((∀ d ∈ successes history, Unclamped d) → (∀ d' ∈ successes history', 2 ^ 32 ≤ d'.micros) →
      (successes history).length < 2 ^ 53 →
      (∀ q, 0.0 < q → q ≤ 1.0 → ∀ p ∈ (after history).percentile q, ∀ p' ∈ (after history').percentile q,
        p'.nanos < p.nanos) ∧
      ∀ m ∈ (after history).maximum, ∀ m' ∈ (after history').maximum, m'.nanos < m.nanos) := by
  have hg := after_gathers history
  have hg' := after_gathers history'
  refine ⟨fun hapart => ?_, fun hclose hfar hfew => ⟨fun q hpos hone p hp p' hp' => ?_, fun m hm m' hm' => ?_⟩⟩
  · have hlevels : List.Forall₂ (fun d d' => levelTop (valueOf d) ≤ levelTop (valueOf d')) (successes history)
        (successes history') := hslower.mp (fun _ _ hle hnot => (levelTop_valueOf_le_iff hle).mpr hnot) hapart
    exact ⟨hg.percentile_le hg' hlevels, hg.maximum_le hg' hlevels⟩
  · obtain ⟨v, hv, hlt, rfl⟩ := hg.percentile_inv hfew hpos hone hp
    obtain ⟨v', hv', _, rfl⟩ := hg'.percentile_inv (hslower.length_eq ▸ hfew) hpos hone hp'
    exact ofMicros_levelTop_lt (levelTop_lt_of_unclamped hclose hfar (mem_of_ranked hv) (mem_of_ranked hv')) hlt
  · obtain ⟨v, hv, hlt, rfl⟩ := hg.maximum_inv hm
    obtain ⟨v', hv', _, rfl⟩ := hg'.maximum_inv hm'
    exact ofMicros_levelTop_lt (levelTop_lt_of_unclamped hclose hfar (mem_of_ranked hv) (mem_of_ranked hv')) hlt

/-- A success that took a microsecond longer is shown as more than eleven minutes faster. -/
theorem slower_by_a_microsecond_looks_faster :
    let t := after [.dispatched, .ended (.success (.ofMicros 4294967295))]
    let t' := after [.dispatched, .ended (.success (.ofMicros 4294967296))]
    ∃ m m', t.maximum = some m ∧ t'.maximum = some m' ∧ m'.nanos < m.nanos ∧ m.nanos = 4294967295000 ∧
      m'.nanos = 3600809983000 ∧ ∀ p ∈ t.percentile 0.50, ∀ p' ∈ t'.percentile 0.50, p'.nanos < p.nanos := by
  intro t t'
  have hm : t.maximum = some (.ofMicros 4294967295) := by decide +kernel
  have hm' : t'.maximum = some (.ofMicros 3600809983) := by decide +kernel
  have hfaster := slower_looks_slower_unless_clamped [.dispatched, .ended (.success (.ofMicros 4294967295))]
    [.dispatched, .ended (.success (.ofMicros 4294967296))] (.cons (by decide) .nil)
  obtain ⟨hpercentiles, hmaximum⟩ := hfaster.2 (by decide) (by decide) (by decide)
  exact ⟨_, _, hm, hm', hmaximum _ hm _ hm', by decide, by decide,
    hpercentiles 0.50 (by decide +kernel) (by decide +kernel)⟩

end Tally
end Cadence
