import Cadence.Proofs.Duration.Notation
import Cadence.Proofs.Json.Numeral

/-!
# Durations as they are shown

A duration is shown as a whole number of one unit: of minutes if it comes to that, else of the unit that its magnitude
selects, to the nearest one (`display_eq`). What is shown reads as a duration again, which is near the one that was shown and
in the same order with others (`shown_duration_is_read_back`).
-/

namespace Cadence.Duration

/-- The sign of a unit in what is shown. -/
def TimeUnit.sign : TimeUnit → String
  | second => "s"
  | millisecond => "ms"
  | microsecond => "us"
  | minute => "m"
  | hour => "h"

/-- The unit that the magnitude of a duration selects. -/
def magnitude (d : Duration) : TimeUnit :=
  if 1000000000 ≤ d.nanos then .second else if 1000000 ≤ d.nanos then .millisecond else .microsecond

/-- The unit that a duration is shown in. -/
def shownUnit (d : Duration) : TimeUnit :=
  if 60000000000 ≤ d.nanos ∧ d.nanos % 60000000000 = 0 then .minute else d.magnitude

/-- The length that is shown, in nanoseconds. -/
def shown (d : Duration) : Nat := roundHalfUp d.nanos d.shownUnit.nanos * d.shownUnit.nanos

/-- The durations that are shown as a positive number, of 64 bits at most. -/
def Showable (d : Duration) : Prop := 500 ≤ d.nanos ∧ d.nanos < Count.top * 1000000000 + 500000000

lemma roundHalfUp_mono {a b : Nat} (h : a ≤ b) (unit : Nat) : roundHalfUp a unit ≤ roundHalfUp b unit :=
  Nat.div_le_div_right (Nat.add_le_add_right h _)

lemma roundHalfUp_mul {unit : Nat} (h : 0 < unit) (n : Nat) : roundHalfUp (n * unit) unit = n := by
  have hhalf : unit / 2 / unit = 0 := Nat.div_eq_of_lt (Nat.div_lt_self h (by decide))
  rw [roundHalfUp, Nat.add_comm, Nat.add_mul_div_right _ _ h, hhalf, Nat.zero_add]

/-- A whole number of a unit is shown as it is. -/
lemma roundHalfUp_mul_of_dvd {value unit : Nat} (h : 0 < unit) (hdvd : unit ∣ value) :
    roundHalfUp value unit * unit = value := by
  obtain ⟨n, rfl⟩ := hdvd
  rw [Nat.mul_comm unit n, roundHalfUp_mul h]

lemma roundHalfUp_near {unit : Nat} (h : 0 < unit) (value : Nat) :
    2 * ((roundHalfUp value unit * unit : Nat) - (value : Int)).natAbs ≤ unit := by
  have hdiv := Nat.div_add_mod' (value + unit / 2) unit
  have hmod := Nat.mod_lt (value + unit / 2) h
  unfold roundHalfUp
  omega

variable {d : Duration}

lemma magnitude_cases (d : Duration) : (d.nanos < 1000000 ∧ d.magnitude = .microsecond) ∨
    (1000000 ≤ d.nanos ∧ d.nanos < 1000000000 ∧ d.magnitude = .millisecond) ∨
    (1000000000 ≤ d.nanos ∧ d.magnitude = .second) := by
  unfold magnitude
  split
  · next h => exact .inr (.inr ⟨h, rfl⟩)
  · next h =>
    split
    · next hm => exact .inr (.inl ⟨hm, Nat.lt_of_not_le h, rfl⟩)
    · next hm => exact .inl ⟨Nat.lt_of_not_le hm, rfl⟩

lemma dvd_of_shown_in_minutes (h : d.shownUnit = .minute) : TimeUnit.minute.nanos ∣ d.nanos := by
  unfold shownUnit at h
  split at h
  · next hminutes => exact Nat.dvd_of_mod_eq_zero hminutes.2
  · unfold magnitude at h
    split at h
    · cases h
    · split at h <;> cases h

lemma shownUnit_cases (d : Duration) : (60000000000 ≤ d.nanos ∧ d.shownUnit = .minute) ∨ d.shownUnit = d.magnitude := by
  unfold shownUnit
  split
  · next h => exact .inl ⟨h.1, rfl⟩
  · exact .inr rfl

/-- What is shown is the number and the sign of the unit. -/
lemma display_eq (d : Duration) :
    d.display = toString (roundHalfUp d.nanos d.shownUnit.nanos) ++ d.shownUnit.sign := by
  unfold display shownUnit
  split
  · next h =>
    have hminutes : roundHalfUp d.nanos TimeUnit.minute.nanos = d.nanos / 60000000000 := by
      simp only [roundHalfUp, TimeUnit.nanos]
      omega
    rw [hminutes]
    rfl
  · unfold magnitude
    split
    · rfl
    · split <;> rfl

/-- Minutes are whole numbers of the unit that the magnitude selects, so it is enough to round to that unit. -/
lemma shown_eq (d : Duration) : d.shown = roundHalfUp d.nanos d.magnitude.nanos * d.magnitude.nanos := by
  unfold shown
  rcases shownUnit_cases d with ⟨hlong, hunit⟩ | hunit
  · have hminutes := dvd_of_shown_in_minutes hunit
    have hmagnitude : d.magnitude = .second := if_pos (by omega)
    have hseconds : TimeUnit.second.nanos ∣ d.nanos := Nat.dvd_trans ⟨60, rfl⟩ hminutes
    rw [hunit, hmagnitude, roundHalfUp_mul_of_dvd (TimeUnit.nanos_pos _) hminutes,
      roundHalfUp_mul_of_dvd (TimeUnit.nanos_pos _) hseconds]
  · rw [hunit]

/-- A longer duration has the same unit, or its unit lies between the two and is a whole number of the other. -/
lemma magnitude_of_le {a b : Duration} (h : a.nanos ≤ b.nanos) : a.magnitude = b.magnitude ∨
    (a.magnitude.nanos ∣ b.magnitude.nanos ∧ a.nanos ≤ b.magnitude.nanos ∧ b.magnitude.nanos ≤ b.nanos) := by
  rcases magnitude_cases a with ⟨ha, hua⟩ | ⟨ha, ha', hua⟩ | ⟨ha, hua⟩ <;>
    rcases magnitude_cases b with ⟨hb, hub⟩ | ⟨hb, hb', hub⟩ | ⟨hb, hub⟩ <;>
      simp only [hua, hub, TimeUnit.nanos, true_or, reduceCtorEq, false_or] <;> omega

lemma shown_mono {a b : Duration} (h : a.nanos ≤ b.nanos) : a.shown ≤ b.shown := by
  rw [shown_eq, shown_eq]
  rcases magnitude_of_le h with hunit | ⟨hdvd, ha, hb⟩
  · rw [hunit]
    exact Nat.mul_le_mul_right _ (roundHalfUp_mono h _)
  · -- neither of the two is rounded beyond the unit of the longer one
    calc roundHalfUp a.nanos a.magnitude.nanos * a.magnitude.nanos
        ≤ roundHalfUp b.magnitude.nanos a.magnitude.nanos * a.magnitude.nanos :=
          Nat.mul_le_mul_right _ (roundHalfUp_mono ha _)
      _ = b.magnitude.nanos := roundHalfUp_mul_of_dvd (TimeUnit.nanos_pos _) hdvd
      _ = roundHalfUp b.magnitude.nanos b.magnitude.nanos * b.magnitude.nanos :=
          (roundHalfUp_mul_of_dvd (TimeUnit.nanos_pos _) (Nat.dvd_refl _)).symm
      _ ≤ roundHalfUp b.nanos b.magnitude.nanos * b.magnitude.nanos :=
          Nat.mul_le_mul_right _ (roundHalfUp_mono hb _)

lemma Showable.number_range (h : d.Showable) : 0 < roundHalfUp d.nanos d.shownUnit.nanos ∧
    roundHalfUp d.nanos d.shownUnit.nanos ≤ Count.top ∧ d.shownUnit.Fits (roundHalfUp d.nanos d.shownUnit.nanos) := by
  obtain ⟨hlow, hhigh⟩ := h
  unfold Count.top at *
  rcases shownUnit_cases d with ⟨hlong, hunit⟩ | hunit
  · have hdvd := dvd_of_shown_in_minutes hunit
    simp only [hunit, roundHalfUp, TimeUnit.nanos, TimeUnit.Fits, Count.top] at *
    omega
  · rw [hunit]
    rcases magnitude_cases d with ⟨hd, hu⟩ | ⟨hd, hd', hu⟩ | ⟨hd, hu⟩ <;>
      simp only [hu, roundHalfUp, TimeUnit.nanos, TimeUnit.Fits, and_true] <;> omega

lemma TimeUnit.sign_mem (u : TimeUnit) : u.sign ∈ u.spellings := by cases u <;> decide

lemma written_toString_append {value : Nat} (h : value ≤ Count.top) (u : TimeUnit) :
    Written (toString value ++ u.sign) value u := by
  refine ⟨h, u.sign, u.sign_mem, ?_⟩
  have hdigits := Json.isDigits_toDigits value
  have hsaid : Quantity.Says ([] ++ (Nat.toDigits 10 value ++ ([] ++ u.sign.toList ++ []))) _ u.sign.toList :=
    .intro .nil hdigits.ne hdigits.digit .nil .nil
  have hvalue := Json.digitsValue_toString value
  rw [Json.toList_toString] at hvalue
  rwa [hvalue, List.nil_append, List.nil_append, List.append_nil, ← Json.toList_toString, ← String.toList_append] at hsaid

lemma Showable.written (h : d.Showable) : Written d.display (roundHalfUp d.nanos d.shownUnit.nanos) d.shownUnit := by
  rw [display_eq]
  exact written_toString_append h.number_range.2.1 _

lemma Showable.parse_display (h : d.Showable) : ∃ back, parse d.display = .ok back ∧ back.nanos = d.shown := by
  obtain ⟨hpos, hle, hfits⟩ := h.number_range
  have hlimit := (TimeUnit.fits_iff hle).mp hfits
  exact ⟨⟨d.shown, hlimit⟩, parse_of_reads (.ok h.written hpos hfits rfl), rfl⟩

/-- What is shown of a duration is written as a whole number of its unit, and reads as a duration that is at most half of
that unit away: as the same duration if that is a whole number of minutes, or of the unit that its magnitude selects. What is
shown of a longer one does not read as a shorter one. -/
theorem shown_duration_is_read_back {d : Duration} (h : d.Showable) :
    ∃ back value, parse d.display = .ok back ∧ Written d.display value d.shownUnit ∧
      back.nanos = value * d.shownUnit.nanos ∧ 2 * ((back.nanos : Int) - d.nanos).natAbs ≤ d.shownUnit.nanos ∧
      (d.shownUnit = .minute → back = d) ∧ (d.magnitude.nanos ∣ d.nanos → back = d) ∧
      ∀ longer : Duration, longer.Showable → d.nanos ≤ longer.nanos →
        ∃ backLonger, parse longer.display = .ok backLonger ∧ back.nanos ≤ backLonger.nanos := by
  obtain ⟨back, hparse, hback⟩ := h.parse_display
  refine ⟨back, _, hparse, h.written, hback, ?_, fun hminute => ?_, fun hdvd => ?_, fun longer hl hle => ?_⟩
  · rw [hback]
    exact roundHalfUp_near (TimeUnit.nanos_pos _) d.nanos
  · apply Duration.ext
    rw [hback, shown, hminute]
    exact roundHalfUp_mul_of_dvd (TimeUnit.nanos_pos _) (dvd_of_shown_in_minutes hminute)
  · apply Duration.ext
    rw [hback, shown_eq]
    exact roundHalfUp_mul_of_dvd (TimeUnit.nanos_pos _) hdvd
  · obtain ⟨backLonger, hparseLonger, hbackLonger⟩ := hl.parse_display
    refine ⟨backLonger, hparseLonger, ?_⟩
    rw [hback, hbackLonger]
    exact shown_mono hle

theorem thousand_milliseconds_are_read_before_sixty_seconds :
    let short : Duration := ⟨999500000, by decide⟩
    let long : Duration := ⟨59999999999, by decide⟩
    short.Showable ∧ long.Showable ∧ short.display = "1000ms" ∧ long.display = "60s" ∧
      ∃ back backLong, parse "1000ms" = .ok back ∧ parse "60s" = .ok backLong ∧ back.nanos ≤ backLong.nanos := by
  intro short long
  have hshort : short.Showable := ⟨by decide, by decide⟩
  have hlong : long.Showable := ⟨by decide, by decide⟩
  have hs : short.display = "1000ms" := by decide +kernel
  have hl : long.display = "60s" := by decide +kernel
  obtain ⟨back, _, hback, _, _, _, _, _, hmono⟩ := shown_duration_is_read_back hshort
  obtain ⟨backLong, hbackLong, hle⟩ := hmono long hlong (by decide)
  exact ⟨hshort, hlong, hs, hl, back, backLong, hs ▸ hback, hl ▸ hbackLong, hle⟩

end Cadence.Duration
