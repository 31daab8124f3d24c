import Cadence.Proofs.Text.Trim
import Cadence.Quantity

/-!
# Quantities as they are written

A text says a number of a unit if it is made of blanks, digits, blanks, the unit and blanks (`Says`). Splitting what
trimming leaves of a text finds what the text says (`says_of_split?`), and whatever a text says is found, unless the
number has more than 64 bits or the unit could be taken for digits or blanks (`Says.split?_eq`).
-/

namespace Cadence.Quantity

open Text

/-- A text that says a number of a unit. -/
inductive Says : List Char → Nat → List Char → Prop where
  | intro {before digits gap unit after} : Blanks before → digits ≠ [] → (∀ d ∈ digits, d.isDigit = true) → Blanks gap →
      Blanks after → Says (before ++ (digits ++ (gap ++ unit ++ after))) (digitsValue digits) unit

/-- What can be told apart from the number before it and from the blanks around it. -/
structure IsUnit (unit : List Char) : Prop where
  bare : Bare unit
  no_digit : ∀ c, unit.head? = some c → c.isDigit = false

lemma isUnit_iff {unit : List Char} :
    IsUnit unit ↔ (unit.head?.all fun c => !isBlank c && !c.isDigit) = true ∧ (unit.getLast?.all fun c => !isBlank c) = true := by
  simp only [Option.all_eq_true, Bool.and_eq_true, Bool.not_eq_true']
  constructor
  · intro h
    exact ⟨fun c hc => ⟨h.bare.first c hc, h.no_digit c hc⟩, h.bare.last⟩
  · rintro ⟨hfirst, hlast⟩
    exact ⟨⟨fun c hc => (hfirst c hc).1, hlast⟩, fun c hc => (hfirst c hc).2⟩

instance (unit : List Char) : Decidable (IsUnit unit) := decidable_of_iff _ isUnit_iff.symm

lemma split?_eq_some_iff {s : List Char} {v : Nat} {u : List Char} :
    split? s = some (v, u) ↔
      number s ≠ [] ∧ digitsValue (number s) ≤ Count.top ∧ digitsValue (number s) = v ∧ unit s = u := by
  unfold split?
  split
  · next h => simp [List.isEmpty_iff.mp h]
  · next h =>
    split
    · next hlarge => simp [Nat.not_le.mpr hlarge]
    · next hfits => simp [mt List.isEmpty_iff.mpr h, Nat.le_of_not_lt hfits]

lemma bare_digits {ds : List Char} (h : ∀ d ∈ ds, d.isDigit = true) : Bare ds where
  first c hc := isBlank_of_isDigit (h c (List.mem_of_mem_head? hc))
  last c hc := isBlank_of_isDigit (h c (List.mem_of_getLast? hc))

/-- What is found in a text is what the text says. -/
lemma says_of_split? {s : List Char} {v : Nat} {u : List Char} (h : split? (trim s) = some (v, u)) :
    Says s v u ∧ v ≤ Count.top := by
  obtain ⟨hne, hle, rfl, rfl⟩ := split?_eq_some_iff.mp h
  refine ⟨?_, hle⟩
  obtain ⟨before, after, hbefore, hafter, hs⟩ := exists_trim s
  obtain ⟨gap, rest, hgap, hrest, hunit⟩ := exists_trim ((trim s).dropWhile Char.isDigit)
  have hsaid : Says (before ++ (number (trim s) ++ (gap ++ unit (trim s) ++ (rest ++ after)))) _ (unit (trim s)) :=
    .intro hbefore hne (fun d hd => List.mem_takeWhile_imp hd) hgap (hrest.append hafter)
  have hparts : s = before ++ (number (trim s) ++ (gap ++ unit (trim s) ++ (rest ++ after))) := by
    calc s = before ++ trim s ++ after := hs
      _ = before ++ (number (trim s) ++ (trim s).dropWhile Char.isDigit) ++ after := by
        rw [number, List.takeWhile_append_dropWhile]
      _ = before ++ (number (trim s) ++ (gap ++ unit (trim s) ++ rest)) ++ after := by rw [unit, ← hunit]
      _ = _ := by simp only [List.append_assoc]
  rwa [← hparts] at hsaid

lemma trimEnd_digits_append {ds : List Char} (h : ∀ d ∈ ds, d.isDigit = true) (s : List Char) :
    trimEnd (ds ++ s) = ds ++ trimEnd s := by
  -- if nothing but blanks follows the digits, trimming stops at the last of them
  have hds : ds.reverse.dropWhile isBlank = ds.reverse := by
    have hself := trimEnd_eq_self_iff.mpr (bare_digits h).last
    rw [trimEnd] at hself
    rw [← List.reverse_inj, hself, List.reverse_reverse]
  unfold trimEnd
  rw [List.reverse_append, List.dropWhile_append]
  split
  · next hs => rw [hds, List.isEmpty_iff.mp hs, List.reverse_nil, List.append_nil, List.reverse_reverse]
  · rw [List.reverse_append, List.reverse_reverse]

/-- A text that does not begin with a digit. -/
def EndsNumber (s : List Char) : Prop := ∀ c, s.head? = some c → c.isDigit = false

lemma endsNumber_of_blanks {s : List Char} (h : Blanks s) : EndsNumber s := by
  intro c hc
  have hblank := h c (List.mem_of_mem_head? hc)
  exact Bool.eq_false_iff.mpr fun hd => absurd (isBlank_of_isDigit hd) (by simp [hblank])

lemma EndsNumber.append {s t : List Char} (hs : EndsNumber s) (ht : EndsNumber t) : EndsNumber (s ++ t) := by
  cases s with
  | nil => exact ht
  | cons c s => exact hs

lemma EndsNumber.isPrefix {s t : List Char} (h : EndsNumber t) (hst : s <+: t) : EndsNumber s := by
  obtain ⟨rest, rfl⟩ := hst
  intro c hc
  apply h
  rw [List.head?_append, hc]
  rfl

lemma EndsNumber.takeWhile_eq {s : List Char} (h : EndsNumber s) : s.takeWhile Char.isDigit = [] := by
  cases s with
  | nil => rfl
  | cons c s => exact List.takeWhile_cons_of_neg (by simp [h c rfl])

lemma EndsNumber.dropWhile_eq {s : List Char} (h : EndsNumber s) : s.dropWhile Char.isDigit = s := by
  cases s with
  | nil => rfl
  | cons c s => exact List.dropWhile_cons_of_neg (by simp [h c rfl])

lemma split?_digits_append {digits rest : List Char} (hne : digits ≠ []) (hdigits : ∀ d ∈ digits, d.isDigit = true)
    (hrest : EndsNumber rest) : split? (trim (digits ++ rest)) =
      if Count.top < digitsValue digits then none else some (digitsValue digits, trim rest) := by
  -- trimming takes nothing away in front of the digits, and only what ends the rest
  have hend : EndsNumber (trimEnd rest) := hrest.isPrefix (List.rdropWhile_prefix isBlank _)
  have hstart : trimStart (digits ++ rest) = digits ++ rest := by
    apply trimStart_eq_self_iff.mpr
    intro c hc
    rw [List.head?_append_of_ne_nil _ hne] at hc
    exact (bare_digits hdigits).first c hc
  have htrim : trim (digits ++ rest) = digits ++ trimEnd rest := by rw [trim, hstart, trimEnd_digits_append hdigits]
  have hnumber : number (digits ++ trimEnd rest) = digits := by
    rw [number, List.takeWhile_append_of_pos hdigits, hend.takeWhile_eq, List.append_nil]
  have hunit : unit (digits ++ trimEnd rest) = trim rest := by
    rw [unit, List.dropWhile_append_of_pos hdigits, hend.dropWhile_eq, trim_trimEnd]
  rw [htrim, split?, hnumber, hunit, if_neg (by rwa [List.isEmpty_iff])]

/-- What a text says is found in it, if the number has 64 bits and the unit can be told apart. -/
lemma Says.split?_eq {s : List Char} {v : Nat} {u : List Char} (h : Says s v u) (hu : IsUnit u) (hv : v ≤ Count.top) :
    split? (trim s) = some (v, u) := by
  cases h with
  | @intro before digits gap _ after hbefore hne hdigits hgap hafter =>
    have hrest : EndsNumber (gap ++ u ++ after) :=
      ((endsNumber_of_blanks hgap).append hu.no_digit).append (endsNumber_of_blanks hafter)
    rw [trim_prepend hbefore, split?_digits_append hne hdigits hrest, if_neg (Nat.not_lt.mpr hv),
      hu.bare.trim_surrounded hgap hafter]

lemma split?_gap {digits gap unit : List Char} (hne : digits ≠ []) (hdigits : ∀ d ∈ digits, d.isDigit = true)
    (hgap : Blanks gap) (hunit : EndsNumber unit) :
    split? (trim (digits ++ (gap ++ unit))) = split? (trim (digits ++ unit)) := by
  rw [split?_digits_append hne hdigits ((endsNumber_of_blanks hgap).append hunit),
    split?_digits_append hne hdigits hunit, trim_prepend hgap]

end Cadence.Quantity
