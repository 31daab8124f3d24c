import Mathlib
import Cadence.Proofs.Text.Trim

/-!
# The case of ASCII letters

Texts differ in case only if each character of the one is the small letter or the capital of the other's (`AnyCase`),
which is so exactly if they agree in small letters (`anyCase_iff`). Blanks have no case, and so a text is trimmed alike in
any case (`trim_map_toLower`).
-/

namespace Cadence.Text

/-- Texts that differ at most in the case of their ASCII letters. -/
def AnyCase (s t : List Char) : Prop := List.Forall₂ (fun c d => d = c.toLower ∨ d = c.toUpper) s t

lemma toLower_eq_toLower_iff {c d : Char} : c.toLower = d.toLower ↔ d = c.toLower ∨ d = c.toUpper := by
  constructor
  · intro h
    by_cases hd : d.isUpper = true
    · right
      calc d = d.toUpper := (Char.toUpper_eq_of_not_isLower (Char.not_isLower_of_isUpper hd)).symm
        _ = c.toUpper := by rw [← d.toUpper_toLower_eq_toUpper, ← h, c.toUpper_toLower_eq_toUpper]
    · left
      rw [h, Char.toLower_eq_of_not_isUpper hd]
  · rintro (rfl | rfl)
    · exact c.toLower_toLower_eq_toLower.symm
    · exact c.toLower_toUpper_eq_toLower.symm

lemma anyCase_iff {s t : List Char} : AnyCase s t ↔ s.map Char.toLower = t.map Char.toLower := by
  rw [← List.forall₂_eq_eq_eq, List.forall₂_map_left_iff, List.forall₂_map_right_iff]
  simp only [toLower_eq_toLower_iff]
  rfl

lemma map_toLower_eq_self {s : List Char} (h : ∀ c ∈ s, c.isUpper = false) : s.map Char.toLower = s := by
  calc s.map Char.toLower = s.map id :=
        List.map_congr_left fun c hc => Char.toLower_eq_of_not_isUpper (Bool.eq_false_iff.mp (h c hc))
    _ = s := List.map_id s

lemma isAlpha_of_isUpper {c : Char} (h : c.isUpper = true) : c.isAlpha = true := by rw [Char.isAlpha, h, Bool.true_or]

lemma toNat_of_isAlpha {c : Char} (h : c.isAlpha = true) : 65 ≤ c.toNat ∧ c.toNat ≤ 122 := by
  simp only [Char.isAlpha, Char.isUpper, Char.isLower, Bool.or_eq_true, Bool.and_eq_true, decide_eq_true_eq] at h
  rcases h with h | h
  · exact ⟨h.1, Nat.le_trans h.2 (by decide)⟩
  · exact ⟨Nat.le_trans (by decide) h.1, h.2⟩

lemma isBlank_of_isAlpha {c : Char} (h : c.isAlpha = true) : isBlank c = false := by
  have hc := toNat_of_isAlpha h
  exact isBlank_of_visible (by omega)

lemma isDigit_of_isAlpha {c : Char} (h : c.isAlpha = true) : c.isDigit = false := by
  have hc := toNat_of_isAlpha h
  refine Bool.eq_false_iff.mpr fun hd => ?_
  have hd := toNat_of_isDigit hd
  omega

section

variable {p : Char → Bool} (hp : ∀ c, c.isAlpha = true → p c = false)
include hp

/-- What is true of no letter does not depend on the case. -/
lemma comp_toLower : p ∘ Char.toLower = p := by
  funext c
  by_cases hc : c.isUpper = true
  · have hletter : c.isAlpha = true := isAlpha_of_isUpper hc
    rw [Function.comp_apply, hp c hletter, hp c.toLower (by rw [Char.isAlpha_toLower_eq_isAlpha, hletter])]
  · rw [Function.comp_apply, Char.toLower_eq_of_not_isUpper hc]

lemma dropWhile_map_toLower (s : List Char) : (s.map Char.toLower).dropWhile p = (s.dropWhile p).map Char.toLower := by
  rw [List.dropWhile_map, comp_toLower hp]

lemma takeWhile_map_toLower (s : List Char) : (s.map Char.toLower).takeWhile p = (s.takeWhile p).map Char.toLower := by
  rw [List.takeWhile_map, comp_toLower hp]

end

lemma trim_map_toLower (s : List Char) : trim (s.map Char.toLower) = (trim s).map Char.toLower := by
  have hdrop := dropWhile_map_toLower fun _ => isBlank_of_isAlpha
  rw [trim, trimStart, hdrop, trimEnd, ← List.map_reverse, hdrop, ← List.map_reverse]
  rfl

end Cadence.Text
