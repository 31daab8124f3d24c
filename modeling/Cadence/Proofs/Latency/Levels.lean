import Cadence.Latency.Histogram
import Mathlib.Algebra.Order.Ring.Nat

/-!
# Levels of latencies

Levels lie in the order of their values (`levelLow_mono`, `levelTop_mono`), also where their width changes, since a
level begins at each power of two. A level is narrow: its largest value is off by less than a part in 1024 from any of
them (`levelTop_sub_lt`).
-/

namespace Cadence.Latency

variable {u v x : Nat}

lemma levelWidth_eq (v : Nat) : levelWidth v = 2 ^ (v.log2 - 10) := by
  show 2 ^ (v.log2 + 1 - 11) = _
  rw [Nat.add_sub_add_right v.log2 1 10]

lemma levelTop_eq (v : Nat) : levelTop v + 1 = levelLow v + levelWidth v := by
  have hpos := levelWidth_pos v
  unfold levelTop
  omega

lemma levelWidth_dvd_levelLow (v : Nat) : levelWidth v ∣ levelLow v := Nat.dvd_mul_left _ _

/-- A bound that is a multiple of the width is not inside of the level. -/
lemma le_levelLow_of_dvd (hx : levelWidth v ∣ x) (h : x ≤ v) : x ≤ levelLow v := by
  obtain ⟨k, rfl⟩ := hx
  rw [Nat.mul_comm] at h ⊢
  exact Nat.mul_le_mul_right _ ((Nat.le_div_iff_mul_le (levelWidth_pos v)).mpr h)

lemma levelTop_lt_of_dvd (hx : levelWidth v ∣ x) (h : v < x) : levelTop v < x := by
  have htop := levelTop_eq v
  obtain ⟨k, rfl⟩ := hx
  rw [Nat.mul_comm] at h ⊢
  have hk : v / levelWidth v < k := (Nat.div_lt_iff_lt_mul (levelWidth_pos v)).mpr h
  have hnext : (v / levelWidth v + 1) * levelWidth v ≤ k * levelWidth v := Nat.mul_le_mul_right _ hk
  rw [Nat.succ_mul] at hnext
  unfold levelLow at htop
  omega

lemma levelWidth_dvd_two_pow {k : Nat} (h : v.log2 ≤ k) : levelWidth v ∣ 2 ^ k := by
  rw [levelWidth_eq]
  exact Nat.pow_dvd_pow 2 (by omega)

/-- A power of two separates the levels on its two sides. -/
lemma levelTop_lt_levelLow (h : u.log2 < v.log2) : levelTop u < levelLow v := by
  have hv : v ≠ 0 := by
    rintro rfl
    exact Nat.not_lt_zero _ (Nat.log2_zero ▸ h)
  have hu : u < 2 ^ v.log2 := by
    rcases Nat.eq_zero_or_pos u with rfl | hu
    · exact Nat.two_pow_pos _
    · exact (Nat.log2_lt hu.ne').mp h
  calc levelTop u < 2 ^ v.log2 := levelTop_lt_of_dvd (levelWidth_dvd_two_pow h.le) hu
    _ ≤ levelLow v := le_levelLow_of_dvd (levelWidth_dvd_two_pow le_rfl) (Nat.log2_self_le hv)

lemma log2_mono (h : u ≤ v) : u.log2 ≤ v.log2 := by
  rcases Nat.eq_zero_or_pos u with rfl | hu
  · exact Nat.zero_le _
  · exact (Nat.le_log2 (by omega)).mpr ((Nat.log2_self_le hu.ne').trans h)

theorem levelLow_mono : Monotone levelLow := by
  intro u v h
  rcases (log2_mono h).lt_or_eq with hlog | hlog
  · exact ((levelLow_le u).trans (le_levelTop u)).trans (levelTop_lt_levelLow hlog).le
  · apply le_levelLow_of_dvd _ ((levelLow_le u).trans h)
    rw [levelWidth_eq, ← hlog]
    exact levelWidth_dvd_levelLow u

theorem levelTop_mono : Monotone levelTop := by
  intro u v h
  rcases (log2_mono h).lt_or_eq with hlog | hlog
  · exact (levelTop_lt_levelLow hlog).le.trans ((levelLow_le v).trans (le_levelTop v))
  · have hlow := levelLow_mono h
    have htop := levelTop_eq u
    have htop' := levelTop_eq v
    rw [levelWidth_eq, hlog, ← levelWidth_eq] at htop
    omega

/-- The smallest value of a level is in that level. -/
lemma log2_levelLow (v : Nat) : (levelLow v).log2 = v.log2 := by
  rcases Nat.eq_zero_or_pos v with rfl | hv
  · rfl
  · have hfirst : 2 ^ v.log2 ≤ levelLow v :=
      le_levelLow_of_dvd (levelWidth_dvd_two_pow le_rfl) (Nat.log2_self_le hv.ne')
    have hpos : levelLow v ≠ 0 := (Nat.lt_of_lt_of_le (Nat.two_pow_pos _) hfirst).ne'
    exact le_antisymm (log2_mono (levelLow_le v)) ((Nat.le_log2 hpos).mpr hfirst)

lemma levelTop_levelLow (v : Nat) : levelTop (levelLow v) = levelTop v := by
  have hwidth : levelWidth (levelLow v) = levelWidth v := by
    rw [levelWidth_eq, levelWidth_eq, log2_levelLow]
  have hlow : levelLow (levelLow v) = levelLow v := by
    apply le_antisymm (levelLow_le _)
    apply le_levelLow_of_dvd _ le_rfl
    rw [hwidth]
    exact levelWidth_dvd_levelLow v
  unfold levelTop
  rw [hwidth, hlow]

/-- So is the largest one. -/
lemma log2_levelTop (v : Nat) : (levelTop v).log2 = v.log2 := by
  have hnext : levelTop v < 2 ^ (v.log2 + 1) :=
    levelTop_lt_of_dvd (levelWidth_dvd_two_pow (Nat.le_succ _)) Nat.lt_log2_self
  apply le_antisymm _ (log2_mono (le_levelTop v))
  rcases Nat.eq_zero_or_pos (levelTop v) with hzero | hpos
  · rw [hzero, Nat.log2_zero]
    exact Nat.zero_le _
  · exact Nat.lt_succ_iff.mp ((Nat.log2_lt hpos.ne').mpr hnext)

theorem levelTop_le_levelTop_iff : levelTop u ≤ levelTop v ↔ u ≤ levelTop v := by
  refine ⟨(le_levelTop u).trans, fun h => (levelTop_mono h).trans ?_⟩
  have htop := levelTop_eq v
  have hwidth : levelWidth (levelTop v) = levelWidth v := by
    rw [levelWidth_eq, levelWidth_eq, log2_levelTop]
  have hnext : levelTop (levelTop v) < levelLow v + levelWidth v := by
    apply levelTop_lt_of_dvd
    · rw [hwidth]
      exact Nat.dvd_add (levelWidth_dvd_levelLow v) (Nat.dvd_refl _)
    · omega
  omega

/-- Levels are in order at both of their ends. -/
lemma levelLow_le_of_levelTop_le (h : levelTop u ≤ levelTop v) : levelLow u ≤ levelLow v := by
  rcases Nat.le_total u v with huv | hvu
  · exact levelLow_mono huv
  · have heq : levelTop u = levelTop v := le_antisymm h (levelTop_mono hvu)
    have hlow := levelTop_eq u
    have hlow' := levelTop_eq v
    have hwidth : levelWidth u = levelWidth v := by
      rw [levelWidth_eq, levelWidth_eq, ← log2_levelTop u, heq, log2_levelTop]
    omega

lemma levelWidth_eq_one (h : v.log2 ≤ 10) : levelWidth v = 1 := calc
  levelWidth v = 2 ^ (v.log2 - 10) := levelWidth_eq v
  _ = 2 ^ 0 := congrArg (2 ^ ·) (Nat.sub_eq_zero_of_le h)
  _ = 1 := rfl

/-- Eleven bits tell a value up to a part in 1024. -/
theorem levelTop_sub_lt (hv : 0 < v) : (levelTop v - v) * 1024 < v := by
  have htop := levelTop_eq v
  have hlow := levelLow_le v
  rcases Nat.lt_or_ge v.log2 10 with hsmall | hbig
  · have hwidth := levelWidth_eq_one hsmall.le
    omega
  · have hwidth : levelWidth v * 1024 = 2 ^ v.log2 := by
      rw [levelWidth_eq, show 1024 = 2 ^ 10 from rfl, ← Nat.pow_add, Nat.sub_add_cancel hbig]
    have hfirst := Nat.log2_self_le hv.ne'
    omega

/-- Small values have a level of their own. -/
theorem levelTop_eq_self (hv : v < 2048) : levelTop v = v := by
  have hlog : v.log2 ≤ 10 := by
    rcases Nat.eq_zero_or_pos v with rfl | hpos
    · exact Nat.zero_le 10
    · exact Nat.lt_succ_iff.mp ((Nat.log2_lt hpos.ne').mpr hv)
  have hwidth := levelWidth_eq_one hlog
  have hlow : levelLow v = v := by
    unfold levelLow
    rw [hwidth, Nat.div_one, Nat.mul_one]
  have htop := levelTop_eq v
  omega

end Cadence.Latency
