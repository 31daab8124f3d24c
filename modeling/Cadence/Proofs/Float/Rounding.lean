import Mathlib

/-!
# Rounding of doubles

The doubles that are not negative, with the rationals that they show (`Shows`), and how a result is rounded to one: a
mantissa with two more bits tells where the exact value lies (`Tells`), shifting it to the right keeps that, and the
double that comes of it is one of those that are nearest (`roundWithAccuracy_nearest`). Nothing else about rounding is
used, so the order of exact values carries over to rounded ones (`Nearest.mono`).
-/

namespace Cadence.Double

open Float.Model Float.Model.UnpackedFloat

/-- The rational that a double shows which is finite and has no minus sign. -/
inductive Shows : UnpackedFloat → ℚ → Prop where
  | zero : Shows (.zero .positive) 0
  | finite {m : ℕ} {e : ℤ} (hm : 0 < m) : m < 2 ^ 53 → -1074 ≤ e → e ≤ 971 → 2 ^ 52 ≤ m ∨ e = -1074 →
      Shows (.finite .positive m e hm) (m * 2 ^ e)

/-- No double is nearer to `x` than one that shows `r`. -/
def Nearest (x r : ℚ) : Prop := ∀ u z, Shows u z → |r - x| ≤ |z - x|

lemma two_zpow_pos (e : ℤ) : (0 : ℚ) < 2 ^ e := zpow_pos (by norm_num) e

lemma two_zpow_mono {d e : ℤ} (h : d ≤ e) : (2 : ℚ) ^ d ≤ 2 ^ e := zpow_le_zpow_right₀ (by norm_num) h

lemma two_zpow_add (d e : ℤ) : (2 : ℚ) ^ (d + e) = 2 ^ d * 2 ^ e := zpow_add₀ (by norm_num) d e

lemma Shows.nonneg {u : UnpackedFloat} {x : ℚ} (h : Shows u x) : 0 ≤ x := by
  cases h with
  | zero => exact le_rfl
  | finite =>
    have := two_zpow_pos
    positivity

namespace Nearest

variable {x x' r r' z : ℚ} {u v : UnpackedFloat}

lemma eq_of_shows (h : Nearest x r) (hx : Shows u x) : r = x := by
  have hclose := h u x hx
  rw [sub_self, abs_zero] at hclose
  exact sub_eq_zero.mp (abs_eq_zero.mp (le_antisymm hclose (abs_nonneg _)))

/-- Rounding does not go beyond a double. -/
lemma le_of_shows (h : Nearest x r) (hz : Shows u z) (hx : x ≤ z) : r ≤ z := by
  have hclose := h u z hz
  rw [abs_of_nonneg (sub_nonneg.mpr hx)] at hclose
  linarith [le_abs_self (r - x)]

/-- The smaller one of two values is not rounded to the larger double. -/
lemma mono (h : Nearest x r) (h' : Nearest x' r') (hr : Shows u r) (hr' : Shows v r') (hx : x < x') : r ≤ r' := by
  by_contra hlt
  have hlt : r' < r := not_le.mp hlt
  -- both values would lie on the wrong side of the middle between the two doubles
  have hlow := h v r' hr'
  have hhigh := h' u r hr
  have hmiddle : r + r' ≤ 2 * x := by
    by_contra hx
    rcases abs_cases (r - x) with ⟨h₁, _⟩ | ⟨h₁, _⟩ <;> rcases abs_cases (r' - x) with ⟨h₂, _⟩ | ⟨h₂, _⟩ <;> linarith
  have hmiddle' : 2 * x' ≤ r + r' := by
    by_contra hx
    rcases abs_cases (r' - x') with ⟨h₁, _⟩ | ⟨h₁, _⟩ <;> rcases abs_cases (r - x') with ⟨h₂, _⟩ | ⟨h₂, _⟩ <;> linarith
  linarith

end Nearest

/-- Where the exact value lies that a mantissa with its two further bits stands for. -/
def Tells (em : ExtendedMantissa) (x : ℚ) : Prop :=
  if em.stickyBit then
    em.mantissa + (if em.roundBit then 1 / 2 else 0) < x ∧ x < em.mantissa + (if em.roundBit then 1 else 1 / 2)
  else x = em.mantissa + if em.roundBit then 1 / 2 else 0

lemma tells_exact (m : ℕ) : Tells (.ofMantissaAndAccuracy m .exact) m := by
  show (m : ℚ) = m + 0
  rw [add_zero]

lemma Tells.le {m : ℕ} {acc : Accuracy} {x : ℚ} (h : Tells (.ofMantissaAndAccuracy m acc) x) : (m : ℚ) ≤ x := by
  rcases acc with _ | (_ | _ | _) <;> simp [Tells, ExtendedMantissa.ofMantissaAndAccuracy] at h <;> linarith

lemma Tells.lt {m : ℕ} {acc : Accuracy} {x : ℚ} (h : Tells (.ofMantissaAndAccuracy m acc) x) : x < m + 1 := by
  rcases acc with _ | (_ | _ | _) <;> simp [Tells, ExtendedMantissa.ofMantissaAndAccuracy] at h <;> linarith

lemma Tells.le_of_le_log2 {m k : ℕ} {acc : Accuracy} {x : ℚ} (h : Tells (.ofMantissaAndAccuracy m acc) x)
    (hm : m ≠ 0) (hk : k ≤ m.log2) : 2 ^ k ≤ x := by
  have hm : 2 ^ k ≤ m := (Nat.le_log2 hm).mp hk
  calc (2 : ℚ) ^ k = (2 ^ k : ℕ) := by push_cast; rfl
    _ ≤ m := Nat.cast_le.mpr hm
    _ ≤ x := h.le

lemma Tells.lt_of_log2_lt {m k : ℕ} {acc : Accuracy} {x : ℚ} (h : Tells (.ofMantissaAndAccuracy m acc) x)
    (hk : m.log2 < k) : x < 2 ^ k := by
  have hm : m + 1 ≤ 2 ^ k := by
    rcases eq_or_ne m 0 with rfl | hm
    · exact Nat.one_le_two_pow
    · exact (Nat.log2_lt hm).mp hk
  calc x < m + 1 := h.lt
    _ = (m + 1 : ℕ) := by push_cast; rfl
    _ ≤ (2 ^ k : ℕ) := Nat.cast_le.mpr hm
    _ = 2 ^ k := by push_cast; rfl

lemma Tells.shiftRightOne {em : ExtendedMantissa} {x : ℚ} (h : Tells em x) : Tells em.shiftRightOne (x / 2) := by
  obtain ⟨m, roundBit, stickyBit⟩ := em
  have hparity := Nat.div_add_mod m 2
  -- the last bit of the mantissa becomes the first further one, and the two that were there decide the second
  have hcast : (m : ℚ) = 2 * (m / 2 : ℕ) + (m % 2 : ℕ) := by exact_mod_cast hparity.symm
  rcases Nat.mod_two_eq_zero_or_one m with hmod | hmod
  all_goals
    rw [hmod] at hcast
    push_cast at hcast
    cases roundBit <;> cases stickyBit <;>
      simp [Tells, ExtendedMantissa.shiftRightOne, hmod] at h ⊢ <;>
      first | (constructor <;> linarith) | linarith

lemma Tells.shiftRight {em : ExtendedMantissa} {x : ℚ} (h : Tells em x) (n : ℕ) : Tells (em >>> n) (x / 2 ^ n) := by
  induction n with
  | zero =>
    rw [pow_zero, div_one]
    exact h
  | succ n ih =>
    rw [pow_succ, ← div_div]
    exact ih.shiftRightOne

/-- Rounding moves a value by half a unit at most. -/
lemma Tells.rounded {em : ExtendedMantissa} {x : ℚ} (h : Tells em x) : |(em.roundedMantissa : ℚ) - x| ≤ 1 / 2 := by
  obtain ⟨m, roundBit, stickyBit⟩ := em
  rw [abs_le]
  cases roundBit <;> cases stickyBit <;>
    simp [Tells, ExtendedMantissa.roundedMantissa, ExtendedMantissa.accuracy, Accuracy.roundToNearestEven] at h ⊢
  · constructor <;> linarith
  · constructor <;> linarith
  · rcases Nat.mod_two_eq_zero_or_one m with hmod | hmod
    all_goals
      rw [hmod]
      push_cast
      constructor <;> linarith
  · constructor <;> linarith

/-- A rounded mantissa is nearest if the step of the doubles there is not larger than its unit. -/
lemma nearest_of_half {x : ℚ} {r : ℕ} {t : ℤ} (hr : |(r : ℚ) - x| ≤ 1 / 2) (ht : t = -1074 ∨ 2 ^ 52 ≤ x) :
    Nearest (x * 2 ^ t) (r * 2 ^ t) := by
  intro u z hz
  have hunit := two_zpow_pos t
  -- it is enough to compare in units of the mantissa
  suffices hscaled : ∀ y, z = y * 2 ^ t → |(r : ℚ) - x| ≤ |y - x| by
    have hy : z = z / 2 ^ t * 2 ^ t := (div_mul_cancel₀ z hunit.ne').symm
    rw [← sub_mul, abs_mul, hy, ← sub_mul, abs_mul]
    exact mul_le_mul_of_nonneg_right (hscaled _ hy) (abs_nonneg _)
  have hwhole : ∀ k : ℤ, |(r : ℚ) - x| ≤ |k - x| := by
    intro k
    by_cases hk : k = r
    · rw [hk]
      exact le_rfl
    · have hfar : (1 : ℚ) ≤ |(k : ℚ) - r| := by
        exact_mod_cast Int.one_le_abs (sub_ne_zero.mpr hk)
      have hsum := abs_sub_le (k : ℚ) x r
      rw [abs_sub_comm x] at hsum
      linarith
  intro y hy
  cases hz with
  | zero =>
    have hzero : y = (0 : ℤ) := by
      rw [Int.cast_zero]
      exact (mul_eq_zero.mp hy.symm).resolve_right hunit.ne'
    rw [hzero]
    exact hwhole 0
  | @finite m e _ hm hlow _ _ =>
    rcases le_or_gt t e with hte | hte
    · obtain ⟨k, rfl⟩ := Int.le.dest hte
      have hmultiple : y = (m * 2 ^ k : ℤ) := by
        rw [two_zpow_add, zpow_natCast, mul_left_comm, mul_comm] at hy
        have hcancel := mul_right_cancel₀ hunit.ne' hy
        push_cast
        exact hcancel.symm
      rw [hmultiple]
      exact hwhole _
    · -- a smaller exponent shows less than all mantissas that have their first bit
      have hx : 2 ^ 52 ≤ x := ht.resolve_left (by omega)
      have hbelow : y ≤ 2 ^ 52 := by
        have hstep : (2 : ℚ) ^ e * 2 ≤ 2 ^ t := by
          rw [← zpow_add_one₀ two_ne_zero]
          exact two_zpow_mono hte
        have hm : (m : ℚ) ≤ 2 ^ 53 := by exact_mod_cast hm.le
        have hscaled : y * 2 ^ t ≤ 2 ^ 52 * 2 ^ t := calc
          y * 2 ^ t = m * 2 ^ e := hy.symm
          _ ≤ 2 ^ 53 * 2 ^ e := mul_le_mul_of_nonneg_right hm (two_zpow_pos e).le
          _ = 2 ^ 52 * (2 ^ e * 2) := by ring
          _ ≤ 2 ^ 52 * 2 ^ t := mul_le_mul_of_nonneg_left hstep (by positivity)
        exact le_of_mul_le_mul_right hscaled hunit
      have hfirst := hwhole (2 ^ 52)
      rw [Int.cast_pow, Int.cast_ofNat, abs_of_nonpos (sub_nonpos.mpr hx)] at hfirst
      have hy := neg_le_abs (y - x)
      linarith

lemma log2_lt_of_lt {m n : ℕ} (hn : 0 < n) (h : m < 2 ^ n) : m.log2 < n := by
  rcases Nat.eq_zero_or_pos m with rfl | hm
  · exact hn
  · exact (Nat.log2_lt hm.ne').mpr h

lemma le_log2_of_le {m n : ℕ} (h : 2 ^ n ≤ m) : n ≤ m.log2 :=
  (Nat.le_log2 (Nat.pos_of_neZero (2 ^ n) |>.trans_le h).ne').mpr h

/-- The exponent that a mantissa of doubles is brought to. -/
lemma targetExponent_eq (m : ℕ) (e : ℤ) :
    Format.binary64.targetExponent (totalExponent m e) = max (m.log2 + 1 + e - 53) (-1074) := rfl

lemma shiftToTargetExponent_eq {m : ℕ} {e t : ℤ} (acc : Accuracy) (ht : max (m.log2 + 1 + e - 53) (-1074) = t)
    (he : e ≤ t) :
    shiftToTargetExponent .binary64 m e acc = (ExtendedMantissa.ofMantissaAndAccuracy m acc >>> (t - e).toNat, t) := by
  show (ExtendedMantissa.ofMantissaAndAccuracy m acc >>> (Format.binary64.targetExponent (totalExponent m e) - e).toNat,
    e + (Format.binary64.targetExponent (totalExponent m e) - e).toNat) = _
  rw [targetExponent_eq, ht, Int.toNat_of_nonneg (by omega), add_sub_cancel]

/-- A rounded mantissa may have one bit too many; it is even then, and the next exponent takes it. -/
lemma shows_carried {r : ℕ} {t : ℤ} (hr : r ≤ 2 ^ 53) (hlow : -1074 ≤ t) (hhigh : t ≤ 970)
    (hnormal : 2 ^ 52 ≤ r ∨ t = -1074) :
    Shows (let (em, e) := shiftToTargetExponent .binary64 r t .exact
      if h : em.mantissa = 0 then .zero .positive else .finite .positive em.mantissa e (Nat.pos_of_ne_zero h))
      (r * 2 ^ t) := by
  rcases hr.lt_or_eq with hr | rfl
  · have hlog := log2_lt_of_lt (by decide) hr
    have hbits : 52 ≤ r.log2 ∨ t = -1074 := hnormal.imp_left le_log2_of_le
    rw [shiftToTargetExponent_eq .exact (t := t) (by omega) le_rfl, sub_self]
    show Shows (if h : r = 0 then _ else .finite .positive r t _) _
    split
    · next hzero =>
      rw [hzero, Nat.cast_zero, zero_mul]
      exact .zero
    · next hpos => exact .finite (Nat.pos_of_ne_zero hpos) hr hlow (by omega) hnormal
  · have hlog : Nat.log2 (2 ^ 53) = 53 := by decide
    rw [shiftToTargetExponent_eq .exact (t := t + 1) (by omega) (by omega), add_sub_cancel_left]
    have hvalue : ((2 ^ 53 : ℕ) : ℚ) * 2 ^ t = (2 ^ 52 : ℕ) * 2 ^ (t + 1) := by
      rw [two_zpow_add]
      norm_num
      ring
    rw [hvalue]
    exact .finite (by decide) (by decide) (by omega) (by omega) (.inl le_rfl)

/-- A mantissa that is rounded to a double shows one that is nearest to the exact value. -/
theorem roundWithAccuracy_nearest {m : ℕ} {e : ℤ} {acc : Accuracy} {x : ℚ}
    (hx : Tells (.ofMantissaAndAccuracy m acc) x) (he : e ≤ max (m.log2 + 1 + e - 53) (-1074))
    (hfits : max (m.log2 + 1 + e - 53) (-1074) ≤ 970) :
    ∃ r, Shows (roundWithAccuracy .binary64 .positive m e acc) r ∧ Nearest (x * 2 ^ e) r := by
  obtain ⟨t, ht⟩ : ∃ t, max (m.log2 + 1 + e - 53) (-1074) = t := ⟨_, rfl⟩
  rw [ht] at he hfits
  obtain ⟨n, hn⟩ := Int.le.dest he
  have hshift : (t - e).toNat = n := by omega
  -- the exact value in units of the exponent that the mantissa is brought to
  have hvalue : x * 2 ^ e = x / 2 ^ n * 2 ^ t := by
    rw [← hn, two_zpow_add, zpow_natCast]
    field_simp
  have hclose := (hx.shiftRight n).rounded
  have hhigh : x / 2 ^ n < 2 ^ 53 := by
    rw [div_lt_iff₀ (by positivity), ← pow_add]
    apply hx.lt_of_log2_lt
    omega
  have hnormal : t = -1074 ∨ 2 ^ 52 ≤ x / 2 ^ n := by
    rcases eq_or_ne t (-1074) with hlow | hlow
    · exact .inl hlow
    · right
      rw [le_div_iff₀ (by positivity), ← pow_add]
      apply hx.le_of_le_log2
      · rintro rfl
        rw [Nat.log2_zero] at ht
        omega
      · omega
  have hbits : ((ExtendedMantissa.ofMantissaAndAccuracy m acc >>> n).roundedMantissa : ℚ) < 2 ^ 53 + 1 := by
    linarith [(abs_le.mp hclose).2]
  refine ⟨(ExtendedMantissa.ofMantissaAndAccuracy m acc >>> n).roundedMantissa * 2 ^ t, ?_, ?_⟩
  · unfold roundWithAccuracy
    rw [shiftToTargetExponent_eq acc ht he, hshift]
    apply shows_carried
    · exact Nat.lt_succ_iff.mp (by exact_mod_cast hbits)
    · omega
    · exact hfits
    · refine hnormal.symm.imp_left fun hlow => ?_
      have hlow : (2 : ℚ) ^ 52 < (ExtendedMantissa.ofMantissaAndAccuracy m acc >>> n).roundedMantissa + 1 := by
        linarith [(abs_le.mp hclose).1]
      exact Nat.lt_succ_iff.mp (by exact_mod_cast hlow)
  · rw [hvalue]
    exact nearest_of_half hclose hnormal

lemma log2_shiftLeft {m : ℕ} (hm : 0 < m) (k : ℕ) : (m <<< k).log2 = m.log2 + k := by
  induction k with
  | zero => rfl
  | succ k ih =>
    have hpos : m <<< k ≠ 0 := by
      rw [Nat.shiftLeft_eq]
      positivity
    rw [Nat.shiftLeft_succ, Nat.log2_two_mul hpos, ih, Nat.add_assoc]

/-- Bits that a mantissa gains are taken from its exponent. -/
lemma shiftLeft_mul_two_zpow (m k : ℕ) (e : ℤ) : ((m <<< k : ℕ) : ℚ) * 2 ^ (e - k) = m * 2 ^ e := by
  have hexp := two_zpow_add k (e - k)
  rw [add_sub_cancel, zpow_natCast] at hexp
  rw [Nat.shiftLeft_eq, Nat.cast_mul, Nat.cast_pow, Nat.cast_ofNat, hexp, mul_assoc]

theorem round_nearest {m : ℕ} {e : ℤ} (hm : 0 < m) (hfits : m.log2 + 1 + e - 53 ≤ 970) :
    ∃ r, Shows (UnpackedFloat.round .binary64 .positive m e) r ∧ Nearest (m * 2 ^ e) r := by
  obtain ⟨t, ht⟩ : ∃ t, max (m.log2 + 1 + e - 53) (-1074) = t := ⟨_, rfl⟩
  have hlog := log2_shiftLeft hm (e - t).toNat
  have hrounded := roundWithAccuracy_nearest (e := e - (e - t).toNat) (tells_exact (m <<< (e - t).toNat))
    (by omega) (by omega)
  rw [shiftLeft_mul_two_zpow] at hrounded
  unfold UnpackedFloat.round
  rw [targetExponent_eq, ht]
  exact hrounded

end Cadence.Double
