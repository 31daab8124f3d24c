import Cadence.Duration
import Cadence.Proofs.Float.Value

/-!
# Counts and durations as doubles

A count below `2 ^ 53` is shown exactly (`toFloat_exact`), and a double is rounded up as the number that it stands for
(`ceil_eq`). Milliseconds of a duration are always a finite number (`toMillis_isFinite`).
-/

namespace Cadence.Double

open Float.Model (UnpackedFloat Format)
open Float.Model.UnpackedFloat

variable {f : Float} {x : ℚ}

lemma shows_multiple {n k : ℕ} (hn : n < 2 ^ 53) (hk : k ≤ 900) : ∃ u, Shows u (n * 2 ^ k) := by
  rcases Nat.eq_zero_or_pos n with rfl | hpos
  · rw [Nat.cast_zero, zero_mul]
    exact ⟨_, .zero⟩
  · -- the bits of the number are moved to the front
    have hlog := log2_lt_of_lt (by decide) hn
    have hmoved := log2_shiftLeft hpos (52 - n.log2)
    have hpos' : n <<< (52 - n.log2) ≠ 0 := (Nat.shiftLeft_pos_iff.mpr hpos).ne'
    have hvalue := shiftLeft_mul_two_zpow n (52 - n.log2) k
    rw [zpow_natCast] at hvalue
    rw [← hvalue]
    refine ⟨_, .finite (Nat.pos_of_ne_zero hpos') ?_ (by omega) (by omega) (.inl ?_)⟩
    · exact (Nat.log2_lt hpos').mp (by omega)
    · exact (Nat.le_log2 hpos').mp (by omega)

lemma shows_natural {n : ℕ} (hn : n < 2 ^ 53) : ∃ u, Shows u n := by
  obtain ⟨u, hu⟩ := shows_multiple hn (Nat.zero_le 900)
  rw [pow_zero, mul_one] at hu
  exact ⟨u, hu⟩

lemma Nearest.le_two_pow {r : ℚ} {k : ℕ} (h : Nearest x r) (hk : k ≤ 900) (hx : x ≤ 2 ^ k) : r ≤ 2 ^ k := by
  obtain ⟨u, hu⟩ := shows_multiple (n := 1) (by decide) hk
  rw [Nat.cast_one, one_mul] at hu
  exact h.le_of_shows hu hx

lemma fits_of_le {k : ℕ} (hk : k ≤ 900) (hx : x ≤ 2 ^ k) : x < 2 ^ (1023 : ℤ) := by
  apply hx.trans_lt
  rw [← zpow_natCast]
  exact (zpow_lt_zpow_iff_right₀ one_lt_two).mpr (by omega)

lemma cap_le_two_pow (n : ℕ) : (Count.cap n : ℚ) ≤ 2 ^ 64 := by
  have hcap : Count.cap n ≤ 2 ^ 64 := (Count.cap_le n).trans (by decide)
  exact_mod_cast hcap

lemma cap_toUInt64 (n : ℕ) : (Count.cap n).toUInt64.toNat = Count.cap n :=
  Nat.mod_eq_of_lt (Nat.lt_succ_of_le (Count.cap_le n))

/-- The double of a count is nearest to it. -/
theorem toFloat_is (n : ℕ) : ∃ r, Is (Count.toFloat n) r ∧ Nearest (Count.cap n) r := by
  obtain ⟨r, hr, hnear⟩ := ofNat_nearest (fits_of_le (by decide) (cap_le_two_pow n))
  rw [← cap_toUInt64] at hr
  exact ⟨r, is_pack hr, hnear⟩

theorem toFloat_exact {n : ℕ} (hn : n < 2 ^ 53) : Is (Count.toFloat n) n := by
  obtain ⟨r, hr, hnear⟩ := toFloat_is n
  obtain ⟨u, hu⟩ := shows_natural hn
  rw [Count.cap_eq (hn.le.trans (by decide))] at hnear
  rw [← hnear.eq_of_shows hu]
  exact hr

lemma toUInt64_eq (hf : Is f x) (hx : x < 2 ^ 53) : f.toUInt64.toNat = ⌊x⌋₊ := by
  have hfloor : ⌊x⌋₊ < 2 ^ 53 := (Nat.floor_lt hf.nonneg).mpr (by exact_mod_cast hx)
  show (UInt64.ofNatClamp (f.toModel.unpack.toInt 0 (UInt64.size - 1)).toNat).toNat = _
  have hsize : ⌊x⌋₊ < UInt64.size := hfloor.trans (by decide)
  rw [toInt_eq_floor hf, Int.toNat_natCast, UInt64.ofNatClamp_eq_ofNat _ hsize]
  exact Nat.mod_eq_of_lt hsize

/-- A double is rounded up as its number. -/
theorem ceil_eq (hf : Is f x) (hx : x < 2 ^ 53) : Count.ceil f = ⌈x⌉₊ := by
  have hfloor : ⌊x⌋₊ < 2 ^ 53 := (Nat.floor_lt hf.nonneg).mpr (by exact_mod_cast hx)
  unfold Count.ceil
  rw [toUInt64_eq hf hx]
  simp only [lt_iff (toFloat_exact hfloor) hf]
  split
  · next hlt =>
    rw [Count.cap_eq (hfloor.trans_le (by decide)), eq_comm, Nat.ceil_eq_iff (Nat.succ_ne_zero _)]
    refine ⟨hlt, ?_⟩
    rw [Nat.cast_succ]
    exact (Nat.lt_floor_add_one x).le
  · next hge =>
    have hwhole : x = ⌊x⌋₊ := le_antisymm (not_lt.mp hge) (Nat.floor_le hf.nonneg)
    rw [hwhole, Nat.ceil_natCast, Nat.floor_natCast]

/-- Seconds of a duration stand for a number that is far from the largest one. -/
theorem toSeconds_is (d : Duration) : ∃ r, Is d.toSeconds r ∧ r ≤ 2 ^ 65 := by
  have hsub : d.subsecond < 1000000000 := Nat.mod_lt _ (by decide)
  have hbillion : Is 1000000000.0 1000000000 := by
    apply is_of_unpack (1000000000 * 2 ^ 23) (-23) (by decide) rfl
    norm_num
  obtain ⟨whole, hwhole, hnear⟩ := toFloat_is d.seconds
  have hwhole_le := hnear.le_two_pow (by decide) (cap_le_two_pow _)
  have hsmall : (d.subsecond : ℚ) / 1000000000 ≤ 2 ^ 0 := by
    rw [pow_zero, div_le_one (by norm_num)]
    exact_mod_cast hsub.le
  obtain ⟨part, hpart, hnear⟩ := div_is (toFloat_exact (hsub.trans (by decide))) hbillion (by norm_num)
    (fits_of_le (by decide) hsmall)
  have hpart_le := hnear.le_two_pow (by decide) hsmall
  have hsum : whole + part ≤ 2 ^ 65 := by
    calc whole + part ≤ 2 ^ 64 + 2 ^ 0 := add_le_add hwhole_le hpart_le
      _ ≤ 2 ^ 65 := by norm_num
  obtain ⟨r, hr, hnear⟩ := add_is hwhole hpart (fits_of_le (by decide) hsum)
  exact ⟨r, hr, hnear.le_two_pow (by decide) hsum⟩

theorem toMillis_isFinite (d : Duration) : d.toMillis.isFinite = true := by
  obtain ⟨r, hr, hle⟩ := toSeconds_is d
  have hthousand : Is 1000.0 1000 := by
    apply is_of_unpack (1000 * 2 ^ 43) (-43) (by decide) rfl
    norm_num
  have hproduct : r * 1000 ≤ 2 ^ 75 := by
    calc r * 1000 ≤ 2 ^ 65 * 1000 := mul_le_mul_of_nonneg_right hle (by norm_num)
      _ ≤ 2 ^ 75 := by norm_num
  obtain ⟨ms, hms, _⟩ := mul_is hr hthousand (fits_of_le (by decide) hproduct)
  exact hms.isFinite

end Cadence.Double
