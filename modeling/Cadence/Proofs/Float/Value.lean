import Cadence.Proofs.Float.Arithmetic

/-!
# Values of doubles

What the operations on doubles do to the numbers that they stand for (`Is`), for doubles that are finite and have no
minus sign: `mul_is`, `div_is` and `add_is` for arithmetic, `lt_iff`, `le_iff` and `beq_iff` for the order, and `is_of_pos_of_le`
for the doubles of which nothing is known but where they lie.
-/

namespace Cadence.Double

open Float.Model (UnpackedFloat Format)
open Float.Model.UnpackedFloat

variable {u v : UnpackedFloat} {f g : Float} {x y : ℚ}

/-- The first bit of a mantissa is not stored. -/
lemma toNat_implicit (m : BitVec 52) : (1#1 ++ m).toNat = 2 ^ 52 + m.toNat := by
  rw [BitVec.toNat_append, ← Nat.shiftLeft_add_eq_or_of_lt m.isLt]
  rfl

lemma unpack_normal {e : BitVec 11} {m : BitVec 52} (hzero : e ≠ 0#11) (htop : e ≠ -1#11)
    (hpos : 0 < (1#1 ++ m).toNat) :
    unpack .binary64 (packComponents .binary64 .positive e m) =
      .finite .positive (1#1 ++ m).toNat (e.toNat - 1075) hpos := by
  unfold unpack
  simp only [unpackExponent_packComponents, unpackMantissa_packComponents, unpackSign_packComponents]
  rw [if_neg htop, if_neg hzero]
  rfl

lemma unpack_subnormal {m : BitVec 52} (hpos : 0 < m.toNat) :
    unpack .binary64 (packComponents .binary64 .positive 0#11 m) = .finite .positive m.toNat (-1074) hpos := by
  have hm : m ≠ 0#52 := by
    rintro rfl
    exact absurd hpos (by decide)
  unfold unpack
  simp only [unpackExponent_packComponents, unpackMantissa_packComponents, unpackSign_packComponents]
  rw [if_neg (by decide), if_pos trivial, dif_neg hm]
  rfl

lemma pack_finite {m b : ℕ} {e : ℤ} (hm : 0 < m) (hb : e + 1075 = b) (hfits : b < 2047) :
    pack .binary64 (.finite .positive m e hm) =
      if m.log2 + 1 = 53 then packComponents .binary64 .positive (BitVec.ofNat 11 b) (BitVec.ofNat 52 m)
      else packComponents .binary64 .positive 0#11 (BitVec.ofNat 52 m) := by
  have hbiased : (e + Format.binary64.exponentBias + Format.binary64.mantissaBitsWithoutImplicit).toNat = b := by
    show (e + 1023 + 52).toNat = b
    omega
  have hfinite : ¬ 2 ^ Format.binary64.exponentBits ≤ b + 1 := by
    show ¬ 2048 ≤ b + 1
    omega
  simp only [pack, hbiased, if_neg hfinite]
  rfl

theorem unpack_pack (hu : Shows u x) : unpack .binary64 (pack .binary64 u) = u := by
  cases hu with
  | zero => rfl
  | @finite m e hm hm' hlow hhigh hnormal =>
    obtain ⟨b, hb⟩ := Int.eq_ofNat_of_zero_le (show 0 ≤ e + 1075 by omega)
    rw [pack_finite hm hb (by omega)]
    have hlog := log2_lt_of_lt (by decide) hm'
    rcases lt_or_ge m (2 ^ 52) with hsmall | hbig
    · have hbits := log2_lt_of_lt (by decide) hsmall
      have hmantissa : (BitVec.ofNat 52 m).toNat = m := Nat.mod_eq_of_lt hsmall
      have hexp : e = -1074 := hnormal.resolve_left (by omega)
      rw [if_neg (by omega), unpack_subnormal (by omega)]
      congr 1
      exact hexp.symm
    · have hbits := le_log2_of_le hbig
      have hmantissa : (1#1 ++ BitVec.ofNat 52 m).toNat = m := by
        rw [toNat_implicit, BitVec.toNat_ofNat]
        omega
      have hexp : (BitVec.ofNat 11 b).toNat = b := Nat.mod_eq_of_lt (by omega)
      have hzero : BitVec.ofNat 11 b ≠ 0#11 := by
        intro h
        rw [h, BitVec.toNat_zero] at hexp
        omega
      have htop : BitVec.ofNat 11 b ≠ -1#11 := by
        intro h
        have hmax : (-1#11).toNat = 2047 := by decide
        rw [h] at hexp
        omega
      rw [if_pos (by omega), unpack_normal hzero htop (by omega)]
      congr 1
      omega

/-- What is read from bits has a mantissa and an exponent of doubles. -/
lemma shows_unpack {b : BitVec 64} {m : ℕ} {e : ℤ} {hm : 0 < m}
    (h : unpack .binary64 b = .finite .positive m e hm) : Shows (.finite .positive m e hm) (m * 2 ^ e) := by
  have hexp : (@unpackExponent .binary64 b).toNat < 2 ^ 11 := BitVec.isLt _
  have hmant : (@unpackMantissa .binary64 b).toNat < 2 ^ 52 := BitVec.isLt _
  simp only [unpack] at h
  split at h
  · split at h <;> cases h
  · next htop =>
    split at h
    · split at h
      · cases h
      · next hzero _ =>
        injection h with _ hm he
        subst hm he
        rw [hzero]
        exact .finite _ (by omega) (by decide) (by decide) (.inr (by decide))
    · next hzero =>
      injection h with _ hm he
      have hlow : (@unpackExponent .binary64 b).toNat ≠ 0 := fun h => hzero (BitVec.eq_of_toNat_eq h)
      have htop : (@unpackExponent .binary64 b).toNat ≠ 2047 := fun h => htop (BitVec.eq_of_toNat_eq h)
      have he : e = (@unpackExponent .binary64 b).toNat - 1075 := he.symm
      rw [toNat_implicit] at hm
      exact .finite _ (by omega) (by omega) (by omega) (.inl (by omega))

/-- A double stands for the number `x`. -/
def Is (f : Float) (x : ℚ) : Prop := Shows f.toModel.unpack x

lemma is_pack (hu : Shows u x) : Is (.ofModel (.pack u)) x := by
  show Shows (unpack .binary64 (pack .binary64 u)) x
  rw [unpack_pack hu]
  exact hu

lemma Is.nonneg (hf : Is f x) : 0 ≤ x := Shows.nonneg hf

lemma is_zero : Is 0.0 0 := .zero

lemma is_of_unpack (m : ℕ) (e : ℤ) (hm : 0 < m) (h : f.toModel.unpack = .finite .positive m e hm)
    (hx : (m : ℚ) * 2 ^ e = x) : Is f x := by
  unfold Is
  rw [h, ← hx]
  exact shows_unpack h

lemma is_one : Is 1.0 1 := by
  apply is_of_unpack (2 ^ 52) (-52) (by decide) rfl
  norm_num

theorem mul_is (hf : Is f x) (hg : Is g y) (hfits : x * y < 2 ^ (1023 : ℤ)) :
    ∃ r, Is (f * g) r ∧ Nearest (x * y) r := by
  obtain ⟨r, hr, hnear⟩ := mul_nearest hf hg hfits
  exact ⟨r, is_pack hr, hnear⟩

theorem div_is (hf : Is f x) (hg : Is g y) (hy : 0 < y) (hfits : x / y < 2 ^ (1023 : ℤ)) :
    ∃ r, Is (f / g) r ∧ Nearest (x / y) r := by
  obtain ⟨r, hr, hnear⟩ := div_nearest hf hg hy hfits
  exact ⟨r, is_pack hr, hnear⟩

theorem add_is (hf : Is f x) (hg : Is g y) (hfits : x + y < 2 ^ (1023 : ℤ)) :
    ∃ r, Is (f + g) r ∧ Nearest (x + y) r := by
  obtain ⟨r, hr, hnear⟩ := add_nearest hf hg hfits
  exact ⟨r, is_pack hr, hnear⟩

lemma lt_unpack : f < g ↔ f.toModel.unpack.lt g.toModel.unpack = true := decide_eq_true_iff

lemma le_unpack : f ≤ g ↔ f.toModel.unpack.le g.toModel.unpack = true := decide_eq_true_iff

theorem lt_iff (hf : Is f x) (hg : Is g y) : f < g ↔ x < y := by
  rw [lt_unpack, UnpackedFloat.lt, compare_eq hf hg, beq_iff_eq, Option.some_inj, compare_lt_iff_lt]

theorem beq_iff (hf : Is f x) (hg : Is g y) : (f == g) = true ↔ x = y := by
  show f.toModel.unpack.beq g.toModel.unpack = true ↔ _
  rw [UnpackedFloat.beq, compare_eq hf hg, beq_iff_eq, Option.some_inj, compare_eq_iff_eq]

theorem le_iff (hf : Is f x) (hg : Is g y) : f ≤ g ↔ x ≤ y := by
  rw [le_unpack, UnpackedFloat.le, compare_eq hf hg, Option.any_some, Ordering.isLE_iff_ne_gt]
  exact compare_le_iff_le

/-- The bits of a double are those of its number. -/
lemma Shows.unique (hu : Shows u x) (hv : Shows v x) : u = v := by
  have hcompare := compare_eq hu hv
  rw [compare_eq_iff_eq.mpr rfl] at hcompare
  cases hu with
  | zero =>
    generalize hzero : (0 : ℚ) = z at hv
    cases hv with
    | zero => rfl
    | finite => cases hcompare
  | @finite m d =>
    generalize (m : ℚ) * 2 ^ d = z at hv
    cases hv with
    | zero => cases hcompare
    | @finite n e =>
      have hboth : (compare d e).then (compare m n) = .eq := Option.some_inj.mp hcompare
      obtain ⟨hexp, hmant⟩ := Ordering.then_eq_eq.mp hboth
      obtain rfl := compare_eq_iff_eq.mp hexp
      obtain rfl := compare_eq_iff_eq.mp hmant
      rfl

lemma Is.value_unique (hx : Is f x) (hy : Is f y) : x = y := by
  unfold Is at hx hy
  generalize f.toModel.unpack = u at hx hy
  cases hx <;> cases hy <;> rfl

lemma mul_congr {h : Float} (hf : Is f x) (hg : Is g x) : f * h = g * h := by
  show Float.ofModel (.pack (mul .binary64 f.toModel.unpack _)) = .ofModel (.pack (mul .binary64 g.toModel.unpack _))
  rw [Shows.unique hf hg]

lemma Shows.isFinite (h : Shows u x) : u.isFinite = true := by
  cases h <;> rfl

lemma Is.isFinite (hf : Is f x) : f.isFinite = true := Shows.isFinite hf

/-- A positive double that is not larger than one with a number stands for a number. -/
lemma is_of_pos_of_le (hpos : 0.0 < f) (hle : f ≤ g) (hg : Is g y) : ∃ x, Is f x ∧ 0 < x ∧ x ≤ y := by
  suffices hshown : ∃ x, Is f x by
    obtain ⟨x, hx⟩ := hshown
    exact ⟨x, hx, (lt_iff is_zero hx).mp hpos, (le_iff hx hg).mp hle⟩
  obtain ⟨v, hv⟩ : ∃ v, f.toModel.unpack = v := ⟨_, rfl⟩
  obtain ⟨w, hw⟩ : ∃ w, g.toModel.unpack = w := ⟨_, rfl⟩
  rw [lt_unpack, hv] at hpos
  rw [le_unpack, hv, hw] at hle
  unfold Is at hg ⊢
  rw [hv]
  rw [hw] at hg
  cases v with
  | notANumber => exact absurd hpos Bool.false_ne_true
  | zero s => exact absurd hpos Bool.false_ne_true
  | infinity s =>
    cases s with
    | negative => exact absurd hpos Bool.false_ne_true
    | positive => cases hg <;> exact absurd hle Bool.false_ne_true
  | finite s m e hm =>
    cases s with
    | negative => exact absurd hpos Bool.false_ne_true
    | positive => exact ⟨_, shows_unpack hv⟩

lemma pos_of_pos_of_le (hpos : 0.0 < f) (hle : f ≤ g) : 0.0 < g := by
  rw [lt_unpack] at hpos ⊢
  rw [le_unpack] at hle
  generalize f.toModel.unpack = v at hpos hle
  generalize g.toModel.unpack = w at hle ⊢
  rcases v with (_ | _) | _ | _ | ⟨_ | _, _, _, _⟩ <;> first
    | exact absurd hpos Bool.false_ne_true
    | rcases w with (_ | _) | _ | _ | ⟨_ | _, _, _, _⟩ <;> first
      | exact absurd hle Bool.false_ne_true
      | exact rfl

lemma le_trans_of_pos {h : Float} (hpos : 0.0 < f) (hfg : f ≤ g) (hgh : g ≤ h) (hh : Is h y) : f ≤ h := by
  obtain ⟨z, hz, _, hzy⟩ := is_of_pos_of_le (pos_of_pos_of_le hpos hfg) hgh hh
  obtain ⟨x, hx, _, hxz⟩ := is_of_pos_of_le hpos hfg hz
  exact (le_iff hx hh).mpr (hxz.trans hzy)

end Cadence.Double
