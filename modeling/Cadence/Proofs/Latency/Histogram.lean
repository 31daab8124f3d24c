import Cadence.Proofs.Float.Counts
import Cadence.Proofs.Latency.Levels
import Cadence.Proofs.Latency.Ranked

/-!
# What a histogram tells of its values

A histogram that counts some values (`Counts`) is their levels in order, each as often as it was recorded. So it finds the
level of the value of a rank (`Counts.levelAt_eq`), and its maximum is the top of the level of the largest value
(`Counts.maximum_eq`). The rank that a quantile asks for is one of the values that there are (`rank_le`), and it grows with
the quantile (`rank_mono`).
-/

namespace Cadence.Latency.Histogram

variable {h : Histogram} {values : List ℕ}

/-- The levels as values, each as often as it is counted. -/
def spread (levels : List (ℕ × ℕ)) : List ℕ := levels.flatMap fun level => List.replicate level.2 level.1

/-- A histogram that holds some values and no others. -/
structure Counts (h : Histogram) (values : List ℕ) : Prop where
  ascending : h.levels.Pairwise (·.1 < ·.1)
  positive : ∀ level ∈ h.levels, 0 < level.2
  perm : (spread h.levels).Perm (values.map levelLow)

lemma counts_empty : Counts empty [] := ⟨.nil, nofun, .nil⟩

lemma spread_cons (l n : ℕ) (levels : List (ℕ × ℕ)) : spread ((l, n) :: levels) = List.replicate n l ++ spread levels :=
  rfl

lemma spread_bump (low : ℕ) (levels : List (ℕ × ℕ)) : (spread (bump low levels)).Perm (low :: spread levels) := by
  fun_induction bump low levels with
  | case1 => exact .refl _
  | case2 => exact .refl _
  | case3 => exact .refl _
  | case4 l n levels _ _ ih =>
    rw [spread_cons, spread_cons]
    exact (ih.append_left _).trans List.perm_middle

lemma forall_bump {p : ℕ → Prop} {low : ℕ} {levels : List (ℕ × ℕ)} (hlow : p low) (h : ∀ level ∈ levels, p level.1) :
    ∀ level ∈ bump low levels, p level.1 := by
  fun_induction bump low levels with
  | case1 => exact List.forall_mem_singleton.mpr hlow
  | case2 => exact List.forall_mem_cons.mpr (List.forall_mem_cons.mp h)
  | case3 => exact List.forall_mem_cons.mpr ⟨hlow, h⟩
  | case4 l n levels _ _ ih =>
    obtain ⟨hfirst, hrest⟩ := List.forall_mem_cons.mp h
    exact List.forall_mem_cons.mpr ⟨hfirst, ih hrest⟩

lemma positive_bump {low : ℕ} {levels : List (ℕ × ℕ)} (h : ∀ level ∈ levels, 0 < level.2) :
    ∀ level ∈ bump low levels, 0 < level.2 := by
  fun_induction bump low levels with
  | case1 => exact List.forall_mem_singleton.mpr Nat.one_pos
  | case2 => exact List.forall_mem_cons.mpr ⟨Nat.succ_pos _, (List.forall_mem_cons.mp h).2⟩
  | case3 => exact List.forall_mem_cons.mpr ⟨Nat.one_pos, h⟩
  | case4 l n levels _ _ ih =>
    obtain ⟨hfirst, hrest⟩ := List.forall_mem_cons.mp h
    exact List.forall_mem_cons.mpr ⟨hfirst, ih hrest⟩

lemma ascending_bump {low : ℕ} {levels : List (ℕ × ℕ)} (h : levels.Pairwise (·.1 < ·.1)) :
    (bump low levels).Pairwise (·.1 < ·.1) := by
  fun_induction bump low levels with
  | case1 => exact List.pairwise_singleton _ _
  | case2 => exact List.pairwise_cons.mpr (List.pairwise_cons.mp h)
  | case3 l n levels _ hlt =>
    refine List.pairwise_cons.mpr ⟨List.forall_mem_cons.mpr ⟨hlt, fun level hmem => ?_⟩, h⟩
    exact Nat.lt_trans hlt (List.rel_of_pairwise_cons h hmem)
  | case4 l n levels hne hge ih =>
    obtain ⟨hfirst, hrest⟩ := List.pairwise_cons.mp h
    refine List.pairwise_cons.mpr ⟨forall_bump (p := (l < ·)) ?_ hfirst, ih hrest⟩
    omega

lemma Counts.record (hc : Counts h values) (v : ℕ) : Counts (h.record v) (v :: values) where
  ascending := ascending_bump hc.ascending
  positive := positive_bump hc.positive
  perm := (spread_bump _ _).trans (hc.perm.cons _)

/-- The order in which values were recorded leaves no trace. -/
lemma Counts.of_perm {values' : List ℕ} (hc : Counts h values) (hp : values.Perm values') : Counts h values' :=
  ⟨hc.ascending, hc.positive, hc.perm.trans (hp.map levelLow)⟩

lemma count_eq_length (levels : List (ℕ × ℕ)) : count levels = (spread levels).length := by
  induction levels with
  | nil => rfl
  | cons level levels ih =>
    rw [spread_cons, List.length_append, List.length_replicate, ← ih]
    rfl

theorem Counts.total_eq (hc : Counts h values) : h.total = values.length := by
  show count h.levels = _
  rw [count_eq_length, hc.perm.length_eq, List.length_map]

lemma spread_ascending {levels : List (ℕ × ℕ)} (h : levels.Pairwise (·.1 < ·.1)) : (spread levels).Pairwise (· ≤ ·) := by
  induction levels with
  | nil => exact .nil
  | cons level levels ih =>
    obtain ⟨hfirst, hrest⟩ := List.pairwise_cons.mp h
    rw [spread_cons, List.pairwise_append]
    refine ⟨List.pairwise_replicate.mpr (.inr le_rfl), ih hrest, fun v hv w hw => ?_⟩
    obtain ⟨level', hmem, hw⟩ := List.mem_flatMap.mp hw
    rw [List.eq_of_mem_replicate hv, List.eq_of_mem_replicate hw]
    exact (hfirst level' hmem).le

/-- The levels are the sorted values, each cut to its level. -/
lemma Counts.spread_eq (hc : Counts h values) : spread h.levels = (values.map levelLow).mergeSort (· ≤ ·) := by
  apply List.Perm.eq_of_sortedLE (spread_ascending hc.ascending).sortedLE List.sortedLE_mergeSort
  exact hc.perm.trans (List.mergeSort_perm _ _).symm

lemma levelAt_eq_getElem {c : ℕ} (hpos : 0 < c) (levels : List (ℕ × ℕ)) : levelAt c levels = (spread levels)[c - 1]? := by
  induction levels generalizing c with
  | nil => rfl
  | cons level levels ih =>
    obtain ⟨l, n⟩ := level
    rw [spread_cons, levelAt]
    split
    · rw [List.getElem?_append_left (by rw [List.length_replicate]; omega), List.getElem?_replicate, if_pos (by omega)]
    · rw [ih (by omega), List.getElem?_append_right (by rw [List.length_replicate]; omega), List.length_replicate]
      congr 1
      omega

/-- The level that the counts reach at a rank is the one of the value of that rank. -/
theorem Counts.levelAt_eq {c : ℕ} (hc : Counts h values) (hpos : 0 < c) :
    levelAt c h.levels = (ranked c values).map levelLow := by
  rw [levelAt_eq_getElem hpos, hc.spread_eq, ← ranked_map levelLow_mono]
  rfl

theorem Counts.isEmpty_iff (hc : Counts h values) : h.isEmpty = true ↔ values = [] := by
  rw [← List.length_eq_zero_iff, ← hc.total_eq]
  obtain ⟨levels⟩ := h
  cases levels with
  | nil => exact iff_of_true rfl rfl
  | cons level levels =>
    have hpos : 0 < level.2 := hc.positive level List.mem_cons_self
    have htotal : total ⟨level :: levels⟩ = level.2 + count levels := rfl
    exact iff_of_false Bool.false_ne_true (by omega)

lemma getLast?_spread {levels : List (ℕ × ℕ)} {level : ℕ × ℕ} (hpos : 0 < level.2) (h : levels.getLast? = some level) :
    (spread levels).getLast? = some level.1 := by
  obtain ⟨before, rfl⟩ := List.getLast?_eq_some_iff.mp h
  have hsplit : spread (before ++ [level]) = spread before ++ List.replicate level.2 level.1 := by
    unfold spread
    rw [List.flatMap_append, List.flatMap_singleton]
  rw [hsplit, List.getLast?_append, List.getLast?_replicate, if_neg hpos.ne']
  rfl

/-- The last level is the one of the largest value. -/
theorem Counts.maximum_eq {v : ℕ} (hc : Counts h values) (hv : ranked values.length values = some v) :
    h.maximum = levelTop v := by
  have hpos : 0 < values.length := List.length_pos_of_mem (mem_of_ranked hv)
  have hlevel := hc.levelAt_eq hpos
  rw [hv, levelAt_eq_getElem hpos, ← hc.total_eq, total, count_eq_length, ← List.getLast?_eq_getElem?] at hlevel
  unfold maximum
  cases hlast : h.levels.getLast? with
  | none =>
    rw [List.getLast?_eq_none_iff.mp hlast] at hlevel
    cases hlevel
  | some level =>
    rw [getLast?_spread (hc.positive level (List.mem_of_getLast? hlast)) hlast] at hlevel
    show levelTop level.1 = _
    rw [Option.some_inj.mp hlevel, levelTop_levelLow]

/-- The value at a quantile is an end of the level of the value of its rank: the upper one, except for the quantile zero. -/
theorem Counts.quantile_eq (hc : Counts h values) (q : Float) :
    h.quantile q =
      ((ranked (rank q values.length) values).map (if q == 0.0 then levelLow else levelTop)).getD 0 := by
  have hlevel := hc.levelAt_eq (show 0 < rank q values.length from Nat.le_max_left 1 _)
  unfold quantile atRank
  rw [hc.total_eq, hlevel]
  split
  · rfl
  · cases ranked (rank q values.length) values with
    | none => rfl
    | some v => exact levelTop_levelLow v

lemma rank_pos (q : Float) (n : ℕ) : 0 < rank q n := Nat.le_max_left 1 _

section Rank

open Double

variable {q q' : Float} {n : ℕ} {x : ℚ}

/-- The product that a quantile asks for is rounded, but not beyond the total. -/
lemma exists_product (hq : Is q x) (hx : x ≤ 1) (hn : n < 2 ^ 53) :
    ∃ r, Is (q * Count.toFloat n) r ∧ Nearest (x * n) r ∧ r ≤ n ∧ rank q n = max 1 ⌈r⌉₊ := by
  obtain ⟨u, hu⟩ := shows_natural hn
  have hn' : (n : ℚ) < 2 ^ 53 := by exact_mod_cast hn
  have hproduct : x * n ≤ n := mul_le_of_le_one_left (Nat.cast_nonneg n) hx
  obtain ⟨r, hr, hnear⟩ := mul_is hq (toFloat_exact hn) (fits_of_le (by decide) (hproduct.trans hn'.le))
  have hle := hnear.le_of_shows hu hproduct
  refine ⟨r, hr, hnear, hle, ?_⟩
  unfold rank
  rw [if_neg ((lt_iff is_one hq).not.mpr hx.not_gt), ceil_eq hr (hle.trans_lt hn')]

theorem rank_le (hq : 0.0 < q) (hle : q ≤ 1.0) (hpos : 0 < n) (hn : n < 2 ^ 53) : rank q n ≤ n := by
  obtain ⟨x, hx, _, hone⟩ := is_of_pos_of_le hq hle is_one
  obtain ⟨r, _, _, hr, hrank⟩ := exists_product hx hone hn
  rw [hrank]
  exact max_le hpos (Nat.ceil_le.mpr hr)

theorem rank_mono (hq : 0.0 < q) (hqq : q ≤ q') (hle : q' ≤ 1.0) (hpos : 0 < n) (hn : n < 2 ^ 53) :
    rank q n ≤ rank q' n := by
  obtain ⟨x', hx', _, hone⟩ := is_of_pos_of_le (pos_of_pos_of_le hq hqq) hle is_one
  obtain ⟨x, hx, _, hxx⟩ := is_of_pos_of_le hq hqq hx'
  obtain ⟨r, hr, hnear, _, hrank⟩ := exists_product hx (hxx.trans hone) hn
  obtain ⟨r', hr', hnear', _, hrank'⟩ := exists_product hx' hone hn
  rw [hrank, hrank']
  apply max_le_max le_rfl
  apply Nat.ceil_le_ceil
  rcases hxx.lt_or_eq with hlt | rfl
  · exact hnear.mono hnear' hr hr' (mul_lt_mul_of_pos_right hlt (Nat.cast_pos.mpr hpos))
  · rw [mul_congr hx hx'] at hr
    exact (hr.value_unique hr').le

end Rank

end Cadence.Latency.Histogram
