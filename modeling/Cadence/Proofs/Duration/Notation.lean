import Cadence.Duration.Notation
import Cadence.Proofs.Quantity

/-!
# Durations as they are written

A duration is written as a number of one of five units, each with its spellings (`TimeUnit`). Reading a text comes to what
its grammar says, for every text (`durations_are_read_exactly`): the exact length, or the one of four refusals that is due.
-/

namespace Cadence.Duration

open Text

/-- The units of written durations. -/
inductive TimeUnit where
  | second
  | millisecond
  | microsecond
  | minute
  | hour
deriving DecidableEq

namespace TimeUnit

/-- How a unit is spelled. Where there is no unit, it is seconds. -/
def spellings : TimeUnit → List String
  | second => ["", "s", "sec", "secs", "second", "seconds"]
  | millisecond => ["ms", "msec", "msecs", "millisecond", "milliseconds"]
  | microsecond => ["us", "µs", "usec", "usecs", "microsecond", "microseconds"]
  | minute => ["m", "min", "mins", "minute", "minutes"]
  | hour => ["h", "hr", "hrs", "hour", "hours"]

/-- The length of a unit in nanoseconds. -/
def nanos : TimeUnit → Nat
  | second => 1000000000
  | millisecond => 1000000
  | microsecond => 1000
  | minute => 60 * 1000000000
  | hour => 3600 * 1000000000

/-- Whether a number of minutes or hours comes to seconds of 64 bits. -/
def Fits : TimeUnit → Nat → Prop
  | minute, value => value * 60 ≤ Count.top
  | hour, value => value * 3600 ≤ Count.top
  | _, _ => True

lemma fits_iff {u : TimeUnit} {value : Nat} (h : value ≤ Count.top) : u.Fits value ↔ value * u.nanos < limit := by
  unfold Count.top at h
  cases u <;> simp only [Fits, nanos, limit, Count.top, true_iff] <;> omega

lemma nanos_pos (u : TimeUnit) : 0 < u.nanos := by cases u <;> decide

lemma unitNanos?_eq_some_iff {spelling : String} {n : Nat} :
    unitNanos? spelling = some n ↔ ∃ u : TimeUnit, spelling ∈ u.spellings ∧ u.nanos = n := by
  constructor
  · intro h
    unfold unitNanos? at h
    split at h
    · next hs => exact ⟨second, hs, Option.some.inj h⟩
    split at h
    · next hs => exact ⟨millisecond, hs, Option.some.inj h⟩
    split at h
    · next hs => exact ⟨microsecond, hs, Option.some.inj h⟩
    split at h
    · next hs => exact ⟨minute, hs, Option.some.inj h⟩
    split at h
    · next hs => exact ⟨hour, hs, Option.some.inj h⟩
    · cases h
  · rintro ⟨u, hs, rfl⟩
    have htable : (u.spellings.all fun s => unitNanos? s = some u.nanos) = true := by cases u <;> decide +kernel
    exact of_decide_eq_true (List.all_eq_true.mp htable spelling hs)

lemma isUnit_spelling {u : TimeUnit} {spelling : String} (h : spelling ∈ u.spellings) : Quantity.IsUnit spelling.toList := by
  have htable : (u.spellings.all fun s => decide (Quantity.IsUnit s.toList)) = true := by cases u <;> decide +kernel
  exact of_decide_eq_true (List.all_eq_true.mp htable spelling h)

end TimeUnit

/-- A text that is written as a number of a unit, the number of 64 bits at most. -/
def Written (text : String) (value : Nat) (u : TimeUnit) : Prop :=
  value ≤ Count.top ∧ ∃ spelling ∈ u.spellings, Quantity.Says text.toList value spelling.toList

/-- What a text reads as. -/
inductive Reads (text : String) : Except DurationError Duration → Prop where
  | empty : Blanks text.toList → Reads text (.error .empty)
  | malformed : ¬ Blanks text.toList → (∀ value u, ¬ Written text value u) → Reads text (.error (.malformed (trimmed text)))
  | tooLarge {value u} : Written text value u → ¬ u.Fits value → Reads text (.error (.tooLarge (trimmed text)))
  | notPositive {u} : Written text 0 u → Reads text (.error (.notPositive (trimmed text)))
  | ok {value u d} : Written text value u → 0 < value → u.Fits value → d.nanos = value * u.nanos → Reads text (.ok d)

variable {text : String} {value : Nat} {u : TimeUnit}

lemma written_iff : Written text value u ↔
    ∃ spelling ∈ u.spellings, Quantity.split? (trim text.toList) = some (value, spelling.toList) := by
  constructor
  · rintro ⟨hle, spelling, hs, hsaid⟩
    exact ⟨spelling, hs, hsaid.split?_eq (TimeUnit.isUnit_spelling hs) hle⟩
  · rintro ⟨spelling, hs, hsplit⟩
    obtain ⟨hsaid, hle⟩ := Quantity.says_of_split? hsplit
    exact ⟨hle, spelling, hs, hsaid⟩

lemma parse_of_blanks (h : Blanks text.toList) : parse text = .error .empty := by
  rw [parse, h.trim_eq_nil]

lemma parse_of_not_blanks (h : ¬ Blanks text.toList) : parse text = parseTrimmed (trim text.toList) := by
  unfold parse
  split
  · next hnil => exact absurd ((trim_nil_iff _).mp hnil) h
  · rfl

lemma Written.not_blanks (h : Written text value u) : ¬ Blanks text.toList := by
  intro hblanks
  obtain ⟨_, _, hsplit⟩ := written_iff.mp h
  rw [hblanks.trim_eq_nil] at hsplit
  cases hsplit

lemma parse_of_written (h : Written text value u) : parse text =
    if hfits : value * u.nanos < limit then
      if value * u.nanos = 0 then .error (.notPositive (trimmed text)) else .ok ⟨value * u.nanos, hfits⟩
    else .error (.tooLarge (trimmed text)) := by
  obtain ⟨spelling, hs, hsplit⟩ := written_iff.mp h
  have hunit : unitNanos? (String.ofList spelling.toList) = some u.nanos := by
    rw [String.ofList_toList, TimeUnit.unitNanos?_eq_some_iff]
    exact ⟨u, hs, rfl⟩
  rw [parse_of_not_blanks h.not_blanks, parseTrimmed, hsplit]
  dsimp only
  rw [hunit]
  rfl

lemma parse_of_unwritten (hne : ¬ Blanks text.toList) (h : ∀ value u, ¬ Written text value u) :
    parse text = .error (.malformed (trimmed text)) := by
  rw [parse_of_not_blanks hne]
  unfold parseTrimmed
  split
  · rfl
  · next value unit hsplit =>
    split
    · rfl
    · next n hunit =>
      obtain ⟨u, hs, _⟩ := TimeUnit.unitNanos?_eq_some_iff.mp hunit
      exact absurd (written_iff.mpr ⟨_, hs, by rwa [String.toList_ofList]⟩) (h value u)

lemma reads_parse (text : String) : Reads text (parse text) := by
  by_cases hblanks : Blanks text.toList
  · rw [parse_of_blanks hblanks]
    exact .empty hblanks
  by_cases hwritten : ∃ value u, Written text value u
  · obtain ⟨value, u, h⟩ := hwritten
    rw [parse_of_written h]
    split
    · next hfits =>
      split
      · next hzero =>
        obtain rfl : value = 0 := (Nat.mul_eq_zero.mp hzero).resolve_right u.nanos_pos.ne'
        exact .notPositive h
      · next hzero =>
        have hpos : 0 < value := Nat.pos_of_ne_zero fun h0 => hzero (by rw [h0, Nat.zero_mul])
        exact .ok h hpos ((TimeUnit.fits_iff h.1).mpr hfits) rfl
    · next hfits => exact .tooLarge h (mt (TimeUnit.fits_iff h.1).mp hfits)
  · simp only [not_exists] at hwritten
    rw [parse_of_unwritten hblanks hwritten]
    exact .malformed hblanks hwritten

lemma parse_of_reads {r : Except DurationError Duration} (h : Reads text r) : parse text = r := by
  cases h with
  | empty hblanks => exact parse_of_blanks hblanks
  | malformed hblanks hunwritten => exact parse_of_unwritten hblanks hunwritten
  | tooLarge hw hfits => rw [parse_of_written hw, dif_neg (mt (TimeUnit.fits_iff hw.1).mpr hfits)]
  | @notPositive u hw =>
    have hfits : 0 * u.nanos < limit := by rw [Nat.zero_mul]; decide
    rw [parse_of_written hw, dif_pos hfits, if_pos (Nat.zero_mul _)]
  | @ok value u d hw hpos hfits hd =>
    have hlimit := (TimeUnit.fits_iff hw.1).mp hfits
    rw [parse_of_written hw, dif_pos hlimit, if_neg (Nat.mul_pos hpos u.nanos_pos).ne']
    exact congrArg Except.ok (Duration.ext hd.symm)

/-- A duration that was read is positive. -/
lemma parse_pos {d : Duration} (h : parse text = .ok d) : 0 < d.nanos := by
  have hreads := reads_parse text
  rw [h] at hreads
  cases hreads with
  | ok _ hpos _ hd =>
    rw [hd]
    exact Nat.mul_pos hpos (TimeUnit.nanos_pos _)

/-- A text reads as a duration exactly if it is written as a positive number of a unit that fits, and then as exactly that
long; of the other texts, each is refused for the first reason there is: that it is blank, that it is not written as a number
of a unit, that the number does not fit, or that it is zero. -/
theorem durations_are_read_exactly (text : String) (r : Except DurationError Duration) : parse text = r ↔ Reads text r :=
  ⟨fun h => h ▸ reads_parse text, parse_of_reads⟩

-- the unit is looked at before the number is found to be zero
example : parse "0x" = .error (.malformed "0x") ∧ parse " 00 min" = .error (.notPositive "00 min") := by decide +kernel

end Cadence.Duration
