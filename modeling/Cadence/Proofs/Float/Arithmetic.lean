import Cadence.Proofs.Float.Rounding

/-!
# Arithmetic of doubles

Products, quotients, sums and counts are rounded to a double that is nearest to the exact result, as long as that is
below `2 ^ 1023`; the order of doubles is the order of what they show, and a double is cut off to the whole part of
what it shows.
-/

namespace Cadence.Double

open Float.Model Float.Model.UnpackedFloat

variable {u v : UnpackedFloat} {x y : ℚ}

lemma Nearest.self (x : ℚ) : Nearest x x := by
  intro _ z _
  rw [sub_self, abs_zero]
  exact abs_nonneg _

/-- Where the first bit of a mantissa stands. -/
lemma log2_add_lt {m : ℕ} {e k : ℤ} (hm : 0 < m) (h : (m : ℚ) * 2 ^ e < 2 ^ k) : m.log2 + e < k := by
  have hfirst : (2 : ℚ) ^ (m.log2 + e) ≤ m * 2 ^ e := by
    rw [two_zpow_add, zpow_natCast]
    apply mul_le_mul_of_nonneg_right _ (two_zpow_pos e).le
    exact_mod_cast Nat.log2_self_le hm.ne'
  exact (zpow_lt_zpow_iff_right₀ one_lt_two).mp (hfirst.trans_lt h)

theorem mul_nearest (hu : Shows u x) (hv : Shows v y) (hfits : x * y < 2 ^ (1023 : ℤ)) :
    ∃ r, Shows (mul .binary64 u v) r ∧ Nearest (x * y) r := by
  cases hu with
  | zero =>
    rw [zero_mul]
    cases hv <;> exact ⟨0, .zero, .self 0⟩
  | @finite m d hm _ hd _ hnormal =>
    cases hv with
    | zero =>
      rw [mul_zero]
      exact ⟨0, .zero, .self 0⟩
    | @finite n e hn _ he _ hnormal' =>
      have hvalue : (m : ℚ) * 2 ^ d * (n * 2 ^ e) = (m * n : ℕ) * 2 ^ (d + e) := by
        rw [two_zpow_add]
        push_cast
        ring
      rw [hvalue] at hfits ⊢
      have hlog := log2_add_lt (Nat.mul_pos hm hn) hfits
      -- the product of two mantissas has enough bits, or both exponents are the lowest one
      have hbits : 52 ≤ (m * n).log2 ∨ d + e ≤ -1074 := by
        rcases hnormal with hm' | hd'
        · exact .inl (le_log2_of_le (hm'.trans (Nat.le_mul_of_pos_right m hn)))
        · rcases hnormal' with hn' | he'
          · exact .inl (le_log2_of_le (hn'.trans (Nat.le_mul_of_pos_left n hm)))
          · exact .inr (by omega)
      exact roundWithAccuracy_nearest (tells_exact _) (by omega) (by omega)

lemma normalize_nearest {n : ℕ} {e : ℤ} (hfits : (n : ℚ) * 2 ^ e < 2 ^ (1023 : ℤ)) :
    ∃ r, Shows (UnpackedFloat.normalize .binary64 n e .positive) r ∧ Nearest (n * 2 ^ e) r := by
  rcases Nat.eq_zero_or_pos n with rfl | hn
  · refine ⟨0, .zero, ?_⟩
    rw [Nat.cast_zero, zero_mul]
    exact .self 0
  · have hlog := log2_add_lt hn hfits
    have hpositive : UnpackedFloat.normalize .binary64 n e .positive = UnpackedFloat.round .binary64 .positive n e := by
      have hcompare : compare (n : ℤ) 0 = .gt := Int.compare_eq_gt.mpr (by omega)
      unfold UnpackedFloat.normalize
      rw [hcompare]
      rfl
    rw [hpositive]
    exact round_nearest hn (by omega)

theorem ofNat_nearest {n : ℕ} (hfits : (n : ℚ) < 2 ^ (1023 : ℤ)) :
    ∃ r, Shows (UnpackedFloat.ofNat .binary64 n) r ∧ Nearest n r := by
  have hvalue : (n : ℚ) * 2 ^ (0 : ℤ) = n := by rw [zpow_zero, mul_one]
  rw [← hvalue] at hfits
  have hrounded := normalize_nearest hfits
  rw [hvalue] at hrounded
  exact hrounded

lemma decreaseExponent_value (m : ℕ) {e t : ℤ} (h : t ≤ e) :
    ((decreaseExponent m e t).1 : ℚ) * 2 ^ t = m * 2 ^ e := by
  have hshift : e - (e - t).toNat = t := by omega
  calc _ = ((m <<< (e - t).toNat : ℕ) : ℚ) * 2 ^ (e - (e - t).toNat) := by rw [hshift]; rfl
    _ = m * 2 ^ e := shiftLeft_mul_two_zpow m _ e

theorem add_nearest (hu : Shows u x) (hv : Shows v y) (hfits : x + y < 2 ^ (1023 : ℤ)) :
    ∃ r, Shows (add .binary64 u v) r ∧ Nearest (x + y) r := by
  cases hu with
  | zero =>
    rw [zero_add]
    cases hv with
    | zero => exact ⟨0, .zero, .self 0⟩
    | finite hm hm' hlow hhigh hnormal => exact ⟨_, .finite hm hm' hlow hhigh hnormal, .self _⟩
  | @finite m d hm hm' hlow hhigh hnormal =>
    cases hv with
    | zero =>
      rw [add_zero]
      exact ⟨_, .finite hm hm' hlow hhigh hnormal, .self _⟩
    | @finite n e hn =>
      have hvalue : (m : ℚ) * 2 ^ d + n * 2 ^ e =
          ((decreaseExponent m d (min d e)).1 + (decreaseExponent n e (min d e)).1 : ℕ) * 2 ^ min d e := by
        rw [Nat.cast_add, add_mul, decreaseExponent_value m (min_le_left d e),
          decreaseExponent_value n (min_le_right d e)]
      rw [hvalue] at hfits ⊢
      exact normalize_nearest hfits

lemma tells_inexact (m : ℕ) {x : ℚ} {o : Ordering} (hpos : 0 < x) (hlt : x < 1) (ho : o.Compares x (1 / 2)) :
    Tells (.ofMantissaAndAccuracy m (.inexact o)) (m + x) := by
  cases o with
  | lt =>
    have ho : x < 1 / 2 := ho
    simp only [Tells, ExtendedMantissa.ofMantissaAndAccuracy, if_true, Bool.false_eq_true, if_false]
    constructor <;> linarith
  | eq =>
    have ho : x = 1 / 2 := ho
    simp only [Tells, ExtendedMantissa.ofMantissaAndAccuracy, if_true, Bool.false_eq_true, if_false]
    rw [ho]
  | gt =>
    have ho : 1 / 2 < x := ho
    simp only [Tells, ExtendedMantissa.ofMantissaAndAccuracy, if_true]
    constructor <;> linarith

lemma compares_half {r n : ℕ} {o : Ordering} (hn : (0 : ℚ) < n) (h : o.Compares (2 * r) n) :
    o.Compares ((r : ℚ) / n) (1 / 2) := by
  cases o with
  | lt =>
    have h : 2 * r < n := h
    exact (div_lt_div_iff₀ hn two_pos).mpr (by exact_mod_cast (by omega : r * 2 < 1 * n))
  | eq =>
    have h : 2 * r = n := h
    exact (div_eq_div_iff hn.ne' two_ne_zero).mpr (by exact_mod_cast (by omega : r * 2 = 1 * n))
  | gt =>
    have h : n < 2 * r := h
    exact (div_lt_div_iff₀ two_pos hn).mpr (by exact_mod_cast (by omega : 1 * n < r * 2))

/-- What division with a remainder leaves is told by the two further bits. -/
lemma tells_fraction (m : ℕ) {n : ℕ} (hn : 0 < n) :
    Tells (.ofMantissaAndAccuracy (m / n) (accuracyOfFraction (m % n) n)) (m / n) := by
  have hn' : (0 : ℚ) < n := Nat.cast_pos.mpr hn
  have hvalue : (m : ℚ) / n = (m / n : ℕ) + (m % n : ℕ) / n := by
    have hdivision : (m : ℚ) = n * (m / n : ℕ) + (m % n : ℕ) := by exact_mod_cast (Nat.div_add_mod m n).symm
    rw [div_eq_iff hn'.ne', add_mul, div_mul_cancel₀ _ hn'.ne', mul_comm]
    exact hdivision
  rw [hvalue]
  unfold accuracyOfFraction
  split
  · next hzero =>
    rw [hzero, Nat.cast_zero, zero_div, add_zero]
    exact tells_exact _
  · next hrest =>
    apply tells_inexact
    · exact div_pos (Nat.cast_pos.mpr (Nat.pos_of_ne_zero hrest)) hn'
    · exact (div_lt_one hn').mpr (Nat.cast_lt.mpr (Nat.mod_lt m hn))
    · exact compares_half hn' ((compare_iff _ _).mp rfl)

lemma le_log2_div {m n k : ℕ} (hm : m ≠ 0) (hn : 0 < n) (h : n.log2 + 1 + k ≤ m.log2) : k ≤ (m / n).log2 := by
  apply le_log2_of_le
  rw [Nat.le_div_iff_mul_le hn]
  calc 2 ^ k * n ≤ 2 ^ k * 2 ^ (n.log2 + 1) := Nat.mul_le_mul_left _ Nat.lt_log2_self.le
    _ = 2 ^ (n.log2 + 1 + k) := by rw [← pow_add, Nat.add_comm k]
    _ ≤ m := (Nat.le_log2 hm).mp h

theorem div_nearest (hu : Shows u x) (hv : Shows v y) (hy : 0 < y) (hfits : x / y < 2 ^ (1023 : ℤ)) :
    ∃ r, Shows (div .binary64 u v) r ∧ Nearest (x / y) r := by
  cases hv with
  | zero => exact absurd hy (lt_irrefl 0)
  | @finite n e hn =>
    cases hu with
    | zero =>
      rw [zero_div]
      exact ⟨0, .zero, .self 0⟩
    | @finite m d hm =>
      obtain ⟨t, ht⟩ : ∃ t, min (d - e) (max (m.log2 + 1 + d - (n.log2 + 1 + e) - 53) (-1074)) = t := ⟨_, rfl⟩
      obtain ⟨k, hk⟩ := Int.le.dest (show t ≤ d - e by omega)
      have htarget : min (d - e) (Format.binary64.targetExponent (totalExponent m d - totalExponent n e)) = t := ht
      have hcore : divCore .binary64 m d n e = ((m <<< k) / n, t, accuracyOfFraction ((m <<< k) % n) n) := by
        have hshift : (d - e - t).toNat = k := by omega
        simp only [divCore, htarget, hshift]
      have hvalue : (m : ℚ) * 2 ^ d / (n * 2 ^ e) = (m <<< k : ℕ) / n * 2 ^ t := by
        have hexp : d - k = t + e := by omega
        have hunit := two_zpow_pos e
        rw [← shiftLeft_mul_two_zpow m k d, hexp, two_zpow_add]
        field_simp
      have hpos : m <<< k ≠ 0 := (Nat.shiftLeft_pos_iff.mpr hm).ne'
      have hlog := log2_shiftLeft hm k
      have htold := tells_fraction (m <<< k) hn
      rw [hvalue] at hfits ⊢
      -- the quotient has enough bits, unless the result is one of the doubles with the lowest exponent
      have hbits : 52 ≤ ((m <<< k) / n).log2 ∨ t ≤ -1074 := by
        rcases le_or_gt t (-1074) with hlow | hhigh
        · exact .inr hlow
        · exact .inl (le_log2_div hpos hn (by omega))
      have hquotient : max (((m <<< k) / n).log2 + 1 + t - 53) (-1074) ≤ 970 := by
        rcases Nat.eq_zero_or_pos ((m <<< k) / n) with hzero | hq
        · rw [hzero, Nat.log2_zero] at hbits ⊢
          omega
        · have htop := log2_add_lt hq ((mul_le_mul_of_nonneg_right htold.le (two_zpow_pos t).le).trans_lt hfits)
          omega
      have hrounded := roundWithAccuracy_nearest htold (e := t) (by omega) hquotient
      show ∃ r, Shows (roundWithAccuracy _ _ (divCore .binary64 m d n e).1 (divCore .binary64 m d n e).2.1
        (divCore .binary64 m d n e).2.2) r ∧ _
      rw [hcore]
      exact hrounded

/-- Below a mantissa that has its first bit, all smaller exponents show less. -/
lemma mul_two_zpow_lt {m n : ℕ} {d e : ℤ} (hm : m < 2 ^ 53) (hde : d < e) (hn : 2 ^ 52 ≤ n) :
    (m : ℚ) * 2 ^ d < n * 2 ^ e := by
  have hm : (m : ℚ) < 2 ^ 53 := by exact_mod_cast hm
  have hn : (2 : ℚ) ^ 52 ≤ n := by exact_mod_cast hn
  have hstep : (2 : ℚ) ^ d * 2 ≤ 2 ^ e := by
    rw [← zpow_add_one₀ two_ne_zero]
    exact two_zpow_mono hde
  calc (m : ℚ) * 2 ^ d < 2 ^ 53 * 2 ^ d := mul_lt_mul_of_pos_right hm (two_zpow_pos d)
    _ = 2 ^ 52 * (2 ^ d * 2) := by ring
    _ ≤ 2 ^ 52 * 2 ^ e := mul_le_mul_of_nonneg_left hstep (by positivity)
    _ ≤ n * 2 ^ e := mul_le_mul_of_nonneg_right hn (two_zpow_pos e).le

/-- The order of doubles is the order of what they show. -/
theorem compare_eq (hu : Shows u x) (hv : Shows v y) : u.compare v = some (compare x y) := by
  cases hu with
  | zero =>
    cases hv with
    | zero => rw [compare_eq_iff_eq.mpr rfl]; rfl
    | @finite n e hn =>
      rw [compare_lt_iff_lt.mpr (mul_pos (Nat.cast_pos.mpr hn) (two_zpow_pos e))]
      rfl
  | @finite m d hm hm' hd _ hnormal =>
    cases hv with
    | zero =>
      rw [compare_gt_iff_gt.mpr (mul_pos (Nat.cast_pos.mpr hm) (two_zpow_pos d))]
      rfl
    | @finite n e hn hn' he _ hnormal' =>
      show some ((compare d e).then (compare m n)) = _
      rcases lt_trichotomy d e with hde | rfl | hde
      · rw [compare_lt_iff_lt.mpr hde, compare_lt_iff_lt.mpr (mul_two_zpow_lt hm' hde (hnormal'.resolve_right (by omega)))]
        rfl
      · rw [compare_eq_iff_eq.mpr (rfl : d = d)]
        show some (compare m n) = _
        have hunit := two_zpow_pos d
        rcases lt_trichotomy m n with hmn | rfl | hmn
        · rw [compare_lt_iff_lt.mpr hmn, compare_lt_iff_lt.mpr (mul_lt_mul_of_pos_right (Nat.cast_lt.mpr hmn) hunit)]
        · rw [compare_eq_iff_eq.mpr (rfl : m = m), compare_eq_iff_eq.mpr (rfl : (m : ℚ) * 2 ^ d = _)]
        · rw [compare_gt_iff_gt.mpr hmn, compare_gt_iff_gt.mpr (mul_lt_mul_of_pos_right (Nat.cast_lt.mpr hmn) hunit)]
      · rw [compare_gt_iff_gt.mpr hde, compare_gt_iff_gt.mpr (mul_two_zpow_lt hn' hde (hnormal.resolve_right (by omega)))]
        rfl

lemma mantissa_shiftRight (em : ExtendedMantissa) (n : ℕ) : (em >>> n).mantissa = em.mantissa / 2 ^ n := by
  induction n with
  | zero => exact (Nat.div_one _).symm
  | succ n ih =>
    show (em >>> n).mantissa / 2 = _
    rw [ih, Nat.div_div_eq_div_mul, pow_succ]

/-- A double is cut off to the whole part of what it shows. -/
theorem toInt_eq_floor (hu : Shows u x) (low high : ℤ) : u.toInt low high = ⌊x⌋₊ := by
  cases hu with
  | zero => rw [Nat.floor_zero]; rfl
  | @finite m e hm =>
    obtain ⟨k, hk⟩ : ∃ k, (e - 0).toNat = k := ⟨_, rfl⟩
    obtain ⟨j, hj⟩ : ∃ j : ℕ, e - k = -j := ⟨(k - e).toNat, by omega⟩
    have hvalue : (m : ℚ) * 2 ^ e = (m <<< k : ℕ) / (2 ^ j : ℕ) := by
      rw [← shiftLeft_mul_two_zpow m k e, hj, zpow_neg, zpow_natCast, div_eq_mul_inv, Nat.cast_pow, Nat.cast_ofNat]
    have hcut : (UnpackedFloat.finite .positive m e hm).toInt low high = (m <<< k / 2 ^ j : ℕ) := by
      show ((ExtendedMantissa.ofMantissaAndAccuracy (m <<< (e - 0).toNat) .exact
        >>> (0 - (e - (e - 0).toNat)).toNat).mantissa : ℤ) = _
      rw [mantissa_shiftRight, hk, hj, zero_sub, neg_neg, Int.toNat_natCast]
      rfl
    rw [hcut, hvalue, Nat.floor_div_eq_div]

end Cadence.Double
