import Cadence.Text.Blank
import Mathlib.Data.List.DropRight

/-!
# Trimmed texts

A text is what is left of it by trimming, with blanks on both sides (`exists_trim`), and blanks on both sides are not seen
after trimming (`trim_surrounded`). A text is not changed by trimming exactly if it neither begins nor ends with a blank
(`trim_eq_self_iff`).
-/

namespace Cadence.Text

lemma isBlank_of_visible {c : Char} (h : 33 ≤ c.toNat ∧ c.toNat ≤ 126) : isBlank c = false := by
  have houtside : ∀ r ∈ blankRanges, r.2 < 33 ∨ 126 < r.1 := by decide
  rw [isBlank, List.any_eq_false]
  intro r hr
  have hr := houtside r hr
  simp only [Bool.and_eq_true, decide_eq_true_eq]
  omega

lemma toNat_of_isDigit {c : Char} (h : c.isDigit = true) : 48 ≤ c.toNat ∧ c.toNat ≤ 57 := Char.isDigit_iff_toNat.mp h

lemma isBlank_of_isDigit {c : Char} (h : c.isDigit = true) : isBlank c = false := by
  have hc := toNat_of_isDigit h
  exact isBlank_of_visible (by omega)

/-- A text of blanks only. -/
def Blanks (s : List Char) : Prop := ∀ c ∈ s, isBlank c = true

/-- What a text is without the blanks around it. -/
def trimmed (text : String) : String := String.ofList (trim text.toList)

/-- A text that neither begins nor ends with a blank. -/
structure Bare (s : List Char) : Prop where
  first : ∀ c, s.head? = some c → isBlank c = false
  last : ∀ c, s.getLast? = some c → isBlank c = false

lemma Blanks.nil : Blanks [] := nofun

lemma Blanks.singleton {c : Char} (h : isBlank c = true) : Blanks [c] := by
  intro d hd
  rw [List.mem_singleton.mp hd]
  exact h

lemma Blanks.append {s t : List Char} (hs : Blanks s) (ht : Blanks t) : Blanks (s ++ t) :=
  fun c hc => (List.mem_append.mp hc).elim (hs c) (ht c)

lemma Blanks.trim_eq_nil {s : List Char} (h : Blanks s) : trim s = [] := (trim_nil_iff s).mpr h

lemma trimEnd_eq (s : List Char) : trimEnd s = s.rdropWhile isBlank := rfl

lemma trimStart_prepend {b : List Char} (h : Blanks b) (s : List Char) : trimStart (b ++ s) = trimStart s :=
  List.dropWhile_append_of_pos h

lemma trimEnd_append {b : List Char} (h : Blanks b) (s : List Char) : trimEnd (s ++ b) = trimEnd s := by
  unfold trimEnd
  rw [List.reverse_append, List.dropWhile_append_of_pos fun c hc => h c (List.mem_reverse.mp hc)]

lemma trim_prepend {b : List Char} (h : Blanks b) (s : List Char) : trim (b ++ s) = trim s := by
  rw [trim, trimStart_prepend h, trim]

lemma trim_append {b : List Char} (h : Blanks b) (s : List Char) : trim (s ++ b) = trim s := by
  unfold trim trimStart
  rw [List.dropWhile_append]
  split
  · next hs =>
    rw [List.isEmpty_iff.mp hs, (dropWhile_nil_iff isBlank b).mpr h]
  · exact trimEnd_append h _

lemma trim_surrounded {before after : List Char} (hbefore : Blanks before) (hafter : Blanks after) (s : List Char) :
    trim (before ++ s ++ after) = trim s := by
  rw [trim_append hafter, trim_prepend hbefore]

lemma trim_isPrefix_trimStart (s : List Char) : trim s <+: trimStart s := List.rdropWhile_prefix isBlank (trimStart s)

lemma exists_trimEnd (s : List Char) : ∃ after, Blanks after ∧ s = trimEnd s ++ after :=
  ⟨s.rtakeWhile isBlank, fun _ hc => List.mem_rtakeWhile_imp hc, List.rdropWhile_append_rtakeWhile.symm⟩

lemma trim_trimEnd (s : List Char) : trim (trimEnd s) = trim s := by
  obtain ⟨after, hafter, hs⟩ := exists_trimEnd s
  conv_rhs => rw [hs, trim_append hafter]

/-- A text is what trimming leaves of it, with blanks on both sides. -/
lemma exists_trim (s : List Char) : ∃ before after, Blanks before ∧ Blanks after ∧ s = before ++ trim s ++ after := by
  obtain ⟨after, hafter, hend⟩ := exists_trimEnd (trimStart s)
  refine ⟨s.takeWhile isBlank, after, fun c hc => List.mem_takeWhile_imp hc, hafter, ?_⟩
  rw [List.append_assoc, trim, ← hend]
  exact List.takeWhile_append_dropWhile.symm

lemma trimStart_eq_self_iff {s : List Char} : trimStart s = s ↔ ∀ c, s.head? = some c → isBlank c = false := by
  cases s with
  | nil => exact ⟨fun _ => nofun, fun _ => rfl⟩
  | cons c s =>
    rw [trimStart, List.dropWhile_eq_self_iff]
    simp

lemma trimEnd_eq_self_iff {s : List Char} : trimEnd s = s ↔ ∀ c, s.getLast? = some c → isBlank c = false := by
  rcases List.eq_nil_or_concat s with rfl | ⟨s, d, rfl⟩
  · exact ⟨fun _ => nofun, fun _ => rfl⟩
  · rw [trimEnd_eq, List.rdropWhile_eq_self_iff]
    simp

lemma trimStart_isSuffix (s : List Char) : trimStart s <:+ s := List.dropWhile_suffix isBlank

/-- Trimming leaves exactly those texts as they are that neither begin nor end with a blank. -/
lemma trim_eq_self_iff {s : List Char} : trim s = s ↔ Bare s := by
  constructor
  · intro h
    have hlength : s.length ≤ (trimStart s).length := by
      conv_lhs => rw [← h]
      exact (trim_isPrefix_trimStart s).length_le
    have hstart : trimStart s = s :=
      (trimStart_isSuffix s).eq_of_length (Nat.le_antisymm (trimStart_isSuffix s).length_le hlength)
    have hend : trimEnd s = s := by rwa [trim, hstart] at h
    exact ⟨trimStart_eq_self_iff.mp hstart, trimEnd_eq_self_iff.mp hend⟩
  · intro h
    rw [trim, trimStart_eq_self_iff.mpr h.first]
    exact trimEnd_eq_self_iff.mpr h.last

lemma trim_trim (s : List Char) : trim (trim s) = trim s := by
  have hstart : trimStart (trim s) = trim s := by
    refine List.dropWhile_eq_self_iff.mpr fun hl hblank => ?_
    -- the first character is the one that the text has without its leading blanks
    have hprefix : trim s <+: trimStart s := trim_isPrefix_trimStart s
    have hlength : 0 < (trimStart s).length := Nat.lt_of_lt_of_le hl hprefix.length_le
    have hfirst : (trim s)[0] = (trimStart s)[0] := hprefix.getElem hl
    rw [hfirst] at hblank
    exact List.dropWhile_get_zero_not isBlank s _ hblank
  calc trim (trim s) = trimEnd (trim s) := by rw [trim, hstart]
    _ = trim s := List.rdropWhile_idempotent isBlank (trimStart s)

lemma Bare.trim_surrounded {s before after : List Char} (h : Bare s) (hbefore : Blanks before) (hafter : Blanks after) :
    trim (before ++ s ++ after) = s := by
  rw [Text.trim_surrounded hbefore hafter, trim_eq_self_iff.mpr h]

end Cadence.Text
