import Cadence.ByteSize
import Cadence.Proofs.Quantity
import Cadence.Proofs.Text.Case
import Mathlib.Logic.Relation

/-!
# Byte sizes as they are written

A size is written as a number of a binary unit, whose name may be in any case (`Written`). Reading a text comes to what its
grammar says, for every text (`reads_parse`): the exact number of bytes, or the one of three refusals that is due. The
number depends neither on the case of the unit nor on the blanks (`SameSize.said_eq`).
-/

namespace Cadence.ByteSize

open Text

/-- The names of the powers of 1024, in small letters. Where there is no unit, it is bytes. -/
def names : Nat → List String
  | 0 => ["", "b"]
  | 1 => ["k", "kb", "kib"]
  | 2 => ["m", "mb", "mib"]
  | 3 => ["g", "gb", "gib"]
  | _ => []

/-- A text that is written as a number of a unit, the number of 64 bits at most and the name in any case. -/
def Written (text : String) (value e : Nat) : Prop :=
  value ≤ Count.top ∧ ∃ name ∈ names e, ∃ unit, AnyCase name.toList unit ∧ Quantity.Says text.toList value unit

/-- What a text reads as. -/
inductive Reads (text : String) : Except SizeError Nat → Prop where
  | malformed : (∀ value e, ¬ Written text value e) → Reads text (.error (.malformed (trimmed text)))
  | tooLarge {value e} : Written text value e → Count.top < value * 1024 ^ e → Reads text (.error (.tooLarge (trimmed text)))
  | notPositive {e} : Written text 0 e → Reads text (.error (.notPositive (trimmed text)))
  | ok {value e} : Written text value e → 1 ≤ value * 1024 ^ e → value * 1024 ^ e ≤ Count.top →
      Reads text (.ok (value * 1024 ^ e))

/-- Texts that differ in the case of letters, in the blanks around them or in the blanks after the number. -/
inductive Restyled : List Char → List Char → Prop where
  | inCase {s t} : AnyCase s t → Restyled s t
  | around {s before after} : Blanks before → Blanks after → Restyled s (before ++ s ++ after)
  | within {digits gap unit} : digits ≠ [] → (∀ d ∈ digits, d.isDigit = true) → Blanks gap → Quantity.EndsNumber unit →
      Restyled (digits ++ unit) (digits ++ (gap ++ unit))

/-- Texts that come from each other by restyling. -/
def SameSize : List Char → List Char → Prop := Relation.EqvGen Restyled

lemma isLower_of_mem_names {name : String} {e : Nat} (h : name ∈ names e) : ∀ c ∈ name.toList, c.isLower = true := by
  have hall : ((names e).all fun s => s.toList.all Char.isLower) = true := by
    match e with
    | 0 | 1 | 2 | 3 => decide +kernel
    | _ + 4 => rfl
  exact List.all_eq_true.mp (List.all_eq_true.mp hall name h)

lemma map_toLower_name {name : String} {e : Nat} (h : name ∈ names e) : name.toList.map Char.toLower = name.toList :=
  map_toLower_eq_self fun c hc => Bool.eq_false_iff.mpr (Char.not_isUpper_of_isLower (isLower_of_mem_names h c hc))

lemma unitExponent?_map_toLower (unit : List Char) : unitExponent? (unit.map Char.toLower) = unitExponent? unit := by
  have htwice : (unit.map Char.toLower).map lowerAscii = unit.map lowerAscii := by
    rw [List.map_map]
    exact List.map_congr_left fun c _ => c.toLower_toLower_eq_toLower
  rw [unitExponent?, htwice, unitExponent?]

lemma unitExponent?_eq_some_iff {unit : List Char} {e : Nat} :
    unitExponent? unit = some e ↔ ∃ name ∈ names e, unit.map Char.toLower = name.toList := by
  constructor
  · intro h
    refine ⟨String.ofList (unit.map Char.toLower), ?_, String.toList_ofList.symm⟩
    unfold unitExponent? at h
    dsimp only at h
    split at h
    · next hname => cases h; exact hname
    split at h
    · next hname => cases h; exact hname
    split at h
    · next hname => cases h; exact hname
    split at h
    · next hname => cases h; exact hname
    · cases h
  · rintro ⟨name, hname, hunit⟩
    have htable : ((names e).all fun s => unitExponent? s.toList = some e) = true := by
      match e with
      | 0 | 1 | 2 | 3 => decide +kernel
      | _ + 4 => rfl
    -- the table is blind to case, so it is enough to look the names up
    rw [← unitExponent?_map_toLower, hunit]
    exact of_decide_eq_true (List.all_eq_true.mp htable name hname)

lemma isUnit_of_unitExponent? {unit : List Char} {e : Nat} (h : unitExponent? unit = some e) : Quantity.IsUnit unit := by
  obtain ⟨name, hname, hunit⟩ := unitExponent?_eq_some_iff.mp h
  -- the names are made of letters, and so is whatever is a name in any case
  have hletters : ∀ c ∈ unit, c.isAlpha = true := by
    intro c hc
    have hlower : c.toLower.isLower = true := by
      apply isLower_of_mem_names hname
      rw [← hunit]
      exact List.mem_map_of_mem hc
    rwa [Char.isLower_toLower_eq_isAlpha] at hlower
  exact {
    bare.first := fun c hc => isBlank_of_isAlpha (hletters c (List.mem_of_mem_head? hc))
    bare.last := fun c hc => isBlank_of_isAlpha (hletters c (List.mem_of_getLast? hc))
    no_digit := fun c hc => isDigit_of_isAlpha (hletters c (List.mem_of_mem_head? hc)) }

/-- The number that a text says and the power of 1024 that it is a number of. -/
def said (text : List Char) : Option (Nat × Nat) :=
  (Quantity.split? (trim text)).bind fun q => (unitExponent? q.2).map fun e => (q.1, e)

lemma said_eq_some_iff {text : List Char} {value e : Nat} :
    said text = some (value, e) ↔ ∃ unit, Quantity.split? (trim text) = some (value, unit) ∧ unitExponent? unit = some e := by
  simp only [said, Option.bind_eq_some_iff, Option.map_eq_some_iff, Prod.mk.injEq]
  constructor
  · rintro ⟨⟨_, unit⟩, hsplit, _, hunit, rfl, rfl⟩
    exact ⟨unit, hsplit, hunit⟩
  · rintro ⟨unit, hsplit, hunit⟩
    exact ⟨(value, unit), hsplit, e, hunit, rfl, rfl⟩

lemma written_iff {text : String} {value e : Nat} : Written text value e ↔ said text.toList = some (value, e) := by
  rw [said_eq_some_iff]
  constructor
  · rintro ⟨hle, name, hname, unit, hcase, hsaid⟩
    have hunit : unitExponent? unit = some e :=
      unitExponent?_eq_some_iff.mpr ⟨name, hname, (anyCase_iff.mp hcase).symm.trans (map_toLower_name hname)⟩
    exact ⟨unit, hsaid.split?_eq (isUnit_of_unitExponent? hunit) hle, hunit⟩
  · rintro ⟨unit, hsplit, hunit⟩
    obtain ⟨name, hname, hcase⟩ := unitExponent?_eq_some_iff.mp hunit
    obtain ⟨hsaid, hle⟩ := Quantity.says_of_split? hsplit
    exact ⟨hle, name, hname, unit, anyCase_iff.mpr ((map_toLower_name hname).trans hcase.symm), hsaid⟩

lemma parse_eq (text : String) : parse text = match said text.toList with
    | none => .error (.malformed (trimmed text))
    | some (value, e) =>
      if Count.top < value * 1024 ^ e then .error (.tooLarge (trimmed text))
      else if value * 1024 ^ e = 0 then .error (.notPositive (trimmed text))
      else .ok (value * 1024 ^ e) := by
  unfold parse said
  dsimp only
  rcases Quantity.split? (trim text.toList) with _ | ⟨value, unit⟩
  · rfl
  · dsimp only [Option.bind_some]
    cases unitExponent? unit <;> rfl

lemma reads_parse (text : String) : Reads text (parse text) := by
  rw [parse_eq]
  split
  · next hnone => exact .malformed fun value e h => by cases (written_iff.mp h).symm.trans hnone
  · next value e hsaid =>
    have hwritten := written_iff.mpr hsaid
    split
    · next hlarge => exact .tooLarge hwritten hlarge
    · next hfits =>
      split
      · next hzero =>
        obtain rfl : value = 0 := (Nat.mul_eq_zero.mp hzero).resolve_right (Nat.pow_pos (by decide)).ne'
        exact .notPositive hwritten
      · next hpos => exact .ok hwritten (Nat.pos_of_ne_zero hpos) (Nat.le_of_not_lt hfits)

lemma parse_of_reads {text : String} {r : Except SizeError Nat} (h : Reads text r) : parse text = r := by
  rw [parse_eq]
  cases h with
  | malformed hunwritten =>
    split
    · rfl
    · next value e hsaid => exact absurd (written_iff.mpr hsaid) (hunwritten value e)
  | tooLarge hwritten hlarge =>
    rw [written_iff.mp hwritten]
    exact if_pos hlarge
  | @notPositive e hwritten =>
    rw [written_iff.mp hwritten]
    have hzero : 0 * 1024 ^ e = 0 := Nat.zero_mul _
    exact (if_neg (by rw [hzero]; decide)).trans (if_pos hzero)
  | ok hwritten hpos hfits =>
    rw [written_iff.mp hwritten]
    exact (if_neg (Nat.not_lt.mpr hfits)).trans (if_neg (Nat.pos_iff_ne_zero.mp hpos))

/-- A size that was read is positive and has 64 bits. -/
lemma parse_range {text : String} {n : Nat} (h : parse text = .ok n) : 0 < n ∧ n ≤ Count.top := by
  have hreads := reads_parse text
  rw [h] at hreads
  cases hreads with
  | ok _ hpos hfits => exact ⟨hpos, hfits⟩

lemma split?_map_toLower (s : List Char) :
    Quantity.split? (s.map Char.toLower) = (Quantity.split? s).map fun q => (q.1, q.2.map Char.toLower) := by
  have hnumber : Quantity.number (s.map Char.toLower) = Quantity.number s := by
    rw [Quantity.number, takeWhile_map_toLower fun _ => isDigit_of_isAlpha]
    refine map_toLower_eq_self fun c hc => Bool.eq_false_iff.mpr fun hupper => ?_
    exact absurd (List.mem_takeWhile_imp hc) (Bool.eq_false_iff.mp (isDigit_of_isAlpha (isAlpha_of_isUpper hupper)))
  have hunit : Quantity.unit (s.map Char.toLower) = (Quantity.unit s).map Char.toLower := by
    rw [Quantity.unit, dropWhile_map_toLower fun _ => isDigit_of_isAlpha, trim_map_toLower, Quantity.unit]
  unfold Quantity.split?
  rw [hnumber, hunit]
  split
  · rfl
  · split <;> rfl

lemma said_map_toLower (s : List Char) : said (s.map Char.toLower) = said s := by
  rw [said, trim_map_toLower, split?_map_toLower, said, Option.bind_map]
  simp only [Function.comp_def, unitExponent?_map_toLower]

lemma Restyled.said_eq {s t : List Char} (h : Restyled s t) : said s = said t := by
  cases h with
  | inCase h => rw [← said_map_toLower, anyCase_iff.mp h, said_map_toLower]
  | around hbefore hafter => rw [said, said, trim_surrounded hbefore hafter]
  | within hne hdigits hgap hunit => rw [said, said, Quantity.split?_gap hne hdigits hgap hunit]

lemma SameSize.said_eq {s t : List Char} (h : SameSize s t) : said s = said t :=
  (eq_equivalence.comap said).eqvGen_iff.mp (Relation.EqvGen.mono (fun _ _ => Restyled.said_eq) _ _ h)

/-- A text reads as a size exactly if it is written as a number of a unit that comes to 64 bits and not to nothing, and then
as exactly that many bytes; every other text is refused for the reason there is. In other letters and with other blanks, it
is the same size or none as well. -/
theorem sizes_are_read_exactly (text : String) :
    (∀ r, parse text = r ↔ Reads text r) ∧
      ∀ other : String, SameSize text.toList other.toList → (parse other).toOption = (parse text).toOption := by
  refine ⟨fun r => ⟨fun h => h ▸ reads_parse text, parse_of_reads⟩, fun other h => ?_⟩
  rw [parse_eq, parse_eq, h.said_eq]
  split
  · rfl
  · split
    · rfl
    · split <;> rfl

theorem kibibytes_are_read_in_any_style :
    SameSize "4KiB".toList "\t4 kIB ".toList ∧ parse "4KiB" = .ok 4096 ∧ (parse "\t4 kIB ").toOption = some 4096 := by
  have hcase : Restyled ['4', 'K', 'i', 'B'] ['4', 'k', 'I', 'B'] := .inCase (anyCase_iff.mpr (by decide))
  have hgap : Restyled (['4'] ++ ['k', 'I', 'B']) (['4'] ++ ([' '] ++ ['k', 'I', 'B'])) :=
    .within nofun (List.forall_mem_singleton.mpr rfl) (.singleton (by decide)) fun _ hc => by cases hc; rfl
  have hblanks : Restyled ['4', ' ', 'k', 'I', 'B'] (['\t'] ++ ['4', ' ', 'k', 'I', 'B'] ++ [' ']) :=
    .around (.singleton (by decide)) (.singleton (by decide))
  have hsame : SameSize "4KiB".toList "\t4 kIB ".toList :=
    ((Relation.EqvGen.rel _ _ hcase).trans _ _ _ (.rel _ _ hgap)).trans _ _ _ (.rel _ _ hblanks)
  have hparse : parse "4KiB" = .ok 4096 := by decide +kernel
  refine ⟨hsame, hparse, ?_⟩
  rw [(sizes_are_read_exactly "4KiB").2 "\t4 kIB " hsame, hparse]
  rfl

end Cadence.ByteSize
