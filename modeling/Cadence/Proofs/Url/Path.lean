import Cadence.Proofs.Url.Form
import Cadence.Url.Path

/-!
# Paths are read back

The segments of a path that was read are settled (`settled_of_mem_parse`): nothing in them is encoded, divided or left out
when they are read again. So a path of settled segments is read back from its text (`parse_text`).
-/

namespace Cadence.Url

open Text

namespace Percent

/-- The characters that stand for a byte that is not kept. -/
def marks : List Char := "%0123456789ABCDEF".toList

lemma mem_marks_of_mem_triple {b : UInt8} {c : Char} (h : c ∈ triple b) : c ∈ marks := by
  have htable : ∀ b, ((triple b).all fun c => marks.contains c) = true := of_all_bytes (by decide +kernel)
  exact List.contains_iff_mem.mp (List.all_eq_true.mp (htable b) c h)

variable {keeps : UInt8 → Bool} {s : List Char} {c : Char}

lemma exists_of_mem_encodeText (h : c ∈ encodeText keeps s) :
    (∃ b ∈ Utf8.encode s, keeps b = true ∧ c = Char.ofNat b.toNat) ∨ c ∈ marks := by
  obtain ⟨b, hb, hc⟩ := List.mem_flatMap.mp h
  unfold encodeByte at hc
  split at hc
  · next hkeeps => exact .inl ⟨b, hb, hkeeps, List.mem_singleton.mp hc⟩
  · exact .inr (mem_marks_of_mem_triple hc)

/-- What is neither a percent sign nor a digit and stands in a text as it was encoded stood in the text before. -/
lemma mem_of_mem_encodeText (hascii : ∀ b, keeps b = true → b.toNat < 128) (hc : c ∉ marks) (h : c ∈ encodeText keeps s) :
    c ∈ s := by
  rcases exists_of_mem_encodeText h with ⟨b, hb, hkeeps, rfl⟩ | hmark
  · exact Utf8.mem_of_mem_encode hb (hascii b hkeeps)
  · exact absurd hmark hc

/-- A character that a part keeps. -/
def Kept (keeps : UInt8 → Bool) (c : Char) : Prop := c.toNat < 128 ∧ keeps (UInt8.ofNat c.toNat) = true

instance : Decidable (Kept keeps c) := inferInstanceAs (Decidable (_ ∧ _))

/-- A text of kept characters stays as it is. -/
lemma encodeText_eq_self (h : ∀ c ∈ s, Kept keeps c) : encodeText keeps s = s := by
  induction s with
  | nil => rfl
  | cons c s ih =>
    have hc := h c List.mem_cons_self
    have ih := ih fun d hd => h d (List.mem_cons_of_mem _ hd)
    have hbyte : encodeByte keeps (UInt8.ofNat c.toNat) = [c] := by
      rw [encodeByte, if_pos hc.2, UInt8.toNat_ofNat', Nat.mod_eq_of_lt (by have := hc.1; omega), Char.ofNat_toNat]
    rw [encodeText, Utf8.encode, List.flatMap_cons, Utf8.utf8EncodeChar_of_lt hc.1, encode, List.flatMap_append,
      List.flatMap_singleton, hbyte, ← encode, ← Utf8.encode, ← encodeText, ih, List.singleton_append]

lemma keptInPath_lt {b : UInt8} (h : keptInPath b = true) : b.toNat < 128 := by
  simp only [keptInPath, keptInFragment, isPrintable, Bool.and_eq_true, decide_eq_true_eq] at h
  exact Nat.lt_trans (UInt8.lt_iff_toNat_lt.mp h.1.1.2) (by decide)

lemma kept_of_mem_encodeText (h : c ∈ encodeText keptInPath s) : Kept keptInPath c := by
  rcases exists_of_mem_encodeText h with ⟨b, _, hb, rfl⟩ | hmark
  · have hlt := keptInPath_lt hb
    have hvalid : b.toNat.isValidChar := Or.inl (by omega)
    have hvalue : (Char.ofNat b.toNat).toNat = b.toNat := by
      rw [Char.ofNat, dif_pos hvalid]
      rfl
    rw [Kept, hvalue, UInt8.ofNat_toNat]
    exact ⟨hlt, hb⟩
  · have hmarks : marks.all (fun c => Kept keptInPath c) = true := by decide +kernel
    exact of_decide_eq_true (List.all_eq_true.mp hmarks c hmark)

end Percent

namespace Path

open Percent

/-- A segment that is the same when it is read again. -/
structure Settled (s : List Char) : Prop where
  kept : ∀ c ∈ s, Kept keptInPath c
  undivided : ∀ c ∈ s, c ≠ '/' ∧ c ≠ '\\'
  not_above : isAbove s = false
  not_here : isHere s = false

lemma settled_iff {s : List Char} : Settled s ↔ s.all (fun c => Kept keptInPath c) = true ∧
    s.all (fun c => c ≠ '/' ∧ c ≠ '\\') = true ∧ isAbove s = false ∧ isHere s = false := by
  simp only [List.all_eq_true, decide_eq_true_iff]
  exact ⟨fun h => ⟨h.kept, h.undivided, h.not_above, h.not_here⟩,
    fun ⟨hkept, hundivided, habove, hhere⟩ => ⟨hkept, hundivided, habove, hhere⟩⟩

instance (s : List Char) : Decidable (Settled s) := decidable_of_iff _ settled_iff.symm

lemma settled_nil : Settled [] := ⟨nofun, nofun, rfl, rfl⟩

lemma mem_leave {done : List (List Char)} {s : List Char} (h : s ∈ leave done) : s ∈ done := by
  unfold leave at h
  split at h
  · split at h
    · exact h
    · exact (List.dropLast_prefix _).subset h
  · exact h

/-- The segments of a path that was followed: those that were there, empty ones, and of the others those that stand neither
for the place itself nor for the one above. -/
lemma mem_resolve {done segments : List (List Char)} {s : List Char} (h : s ∈ resolve done segments) :
    s ∈ done ∨ s = [] ∨ (s ∈ segments ∧ isAbove s = false ∧ isHere s = false) := by
  fun_induction resolve done segments with
  | case1 done => exact .inl h
  | case2 done t habove =>
    rcases List.mem_append.mp h with h | h
    · exact .inl (mem_leave h)
    · exact .inr (.inl (List.mem_singleton.mp h))
  | case3 done t habove hhere =>
    rcases List.mem_append.mp h with h | h
    · exact .inl h
    · exact .inr (.inl (List.mem_singleton.mp h))
  | case4 done t habove hhere =>
    rcases List.mem_append.mp h with h | h
    · exact .inl h
    · rw [List.mem_singleton.mp h]
      exact .inr (.inr ⟨List.mem_cons_self, Bool.eq_false_iff.mpr habove, Bool.eq_false_iff.mpr hhere⟩)
  | case5 done t u r habove ih =>
    rcases ih h with h | h | ⟨hmem, hs⟩
    · exact .inl (mem_leave h)
    · exact .inr (.inl h)
    · exact .inr (.inr ⟨List.mem_cons_of_mem _ hmem, hs⟩)
  | case6 done t u r habove hhere ih =>
    rcases ih h with h | h | ⟨hmem, hs⟩
    · exact .inl h
    · exact .inr (.inl h)
    · exact .inr (.inr ⟨List.mem_cons_of_mem _ hmem, hs⟩)
  | case7 done t u r habove hhere ih =>
    rcases ih h with h | h | ⟨hmem, hs⟩
    · rcases List.mem_append.mp h with h | h
      · exact .inl h
      · rw [List.mem_singleton.mp h]
        exact .inr (.inr ⟨List.mem_cons_self, Bool.eq_false_iff.mpr habove, Bool.eq_false_iff.mpr hhere⟩)
    · exact .inr (.inl h)
    · exact .inr (.inr ⟨List.mem_cons_of_mem _ hmem, hs⟩)

/-- The parts of a text between slashes hold none of them. -/
lemma undivided_of_mem_split {s part : List Char} (h : part ∈ split s) : ∀ c ∈ part, c ≠ '/' ∧ c ≠ '\\' := by
  rintro c hc
  constructor
  · rintro rfl
    exact Form.not_mem_of_mem_splitAt h hc
  · rintro rfl
    obtain ⟨d, _, hd⟩ := List.mem_map.mp (Form.mem_of_mem_splitAt h hc)
    split at hd
    · cases hd
    · next hne => exact hne hd

lemma undivided_encodeText {s : List Char} (h : ∀ c ∈ s, c ≠ '/' ∧ c ≠ '\\') :
    ∀ c ∈ encodeText keptInPath s, c ≠ '/' ∧ c ≠ '\\' := by
  rintro c hc
  constructor
  · rintro rfl
    exact (h _ (mem_of_mem_encodeText (fun _ => keptInPath_lt) (by decide) hc)).1 rfl
  · rintro rfl
    exact (h _ (mem_of_mem_encodeText (fun _ => keptInPath_lt) (by decide) hc)).2 rfl

/-- The segments of a path that was read are settled. -/
theorem settled_of_mem_parse {s segment : List Char} (h : segment ∈ parse s) : Settled segment := by
  unfold parse at h
  rcases mem_resolve h with h | rfl | ⟨hmem, habove, hhere⟩
  · exact absurd h List.not_mem_nil
  · exact settled_nil
  · obtain ⟨part, hpart, rfl⟩ := List.mem_map.mp hmem
    exact ⟨fun c hc => kept_of_mem_encodeText hc, undivided_encodeText (undivided_of_mem_split hpart), habove, hhere⟩

lemma split_of_undivided {s : List Char} (h : ∀ c ∈ s, c ≠ '\\') : split s = Form.splitAt '/' s := by
  have hmap : s.map (fun c => if c = '\\' then '/' else c) = s := by
    calc s.map (fun c => if c = '\\' then '/' else c) = s.map id := List.map_congr_left fun c hc => if_neg (h c hc)
      _ = s := List.map_id s
  rw [split, hmap]

lemma splitAt_append_text {s : List Char} {segments : List (List Char)} (h : ∀ t ∈ s :: segments, Settled t) :
    Form.splitAt '/' (s ++ text segments) = s :: segments := by
  have hs : '/' ∉ s := fun hmem => ((h s List.mem_cons_self).undivided _ hmem).1 rfl
  induction segments generalizing s with
  | nil => rw [text, List.flatMap_nil, List.append_nil, Form.splitAt_of_not_mem hs]
  | cons t segments ih =>
    have htail : ∀ u ∈ t :: segments, Settled u := fun u hu => h u (List.mem_cons_of_mem _ hu)
    have ht : '/' ∉ t := fun hmem => ((htail t List.mem_cons_self).undivided _ hmem).1 rfl
    rw [text, List.flatMap_cons, List.cons_append, ← text, Form.splitAt_append, Form.splitAt_of_not_mem hs, ih htail ht,
      List.singleton_append]

/-- All characters of a path of settled segments are kept in a path, and none is a backslash. -/
lemma kept_of_mem_text {segments : List (List Char)} (h : ∀ s ∈ segments, Settled s) {c : Char} (hc : c ∈ text segments) :
    Kept keptInPath c ∧ c ≠ '\\' := by
  obtain ⟨s, hs, hc⟩ := List.mem_flatMap.mp hc
  rcases List.mem_cons.mp hc with rfl | hc
  · exact ⟨by decide, by decide⟩
  · exact ⟨(h s hs).kept c hc, ((h s hs).undivided c hc).2⟩

lemma not_isDropped {c : Char} (h : Kept keptInPath c) : isDropped c = false := by
  cases hdropped : isDropped c with
  | false => rfl
  | true =>
    simp only [isDropped, Bool.or_eq_true, decide_eq_true_eq] at hdropped
    rcases hdropped with (rfl | rfl) | rfl <;> exact absurd h (by decide)

/-- A path of settled segments holds nothing that URLs do without. -/
lemma filter_text {segments : List (List Char)} (h : ∀ s ∈ segments, Settled s) :
    (text segments).filter (fun c => !isDropped c) = text segments :=
  List.filter_eq_self.mpr fun c hc => by rw [not_isDropped (kept_of_mem_text h hc).1, Bool.not_false]

/-- A path of settled segments is read back from its text. -/
theorem parse_text {segments : List (List Char)} (hne : segments ≠ []) (h : ∀ s ∈ segments, Settled s) :
    parse (text segments) = segments := by
  cases segments with
  | nil => exact absurd rfl hne
  | cons s segments =>
    have hbackslash : ∀ c ∈ s ++ text segments, c ≠ '\\' :=
      fun c hc => (kept_of_mem_text h (List.mem_cons_of_mem '/' hc)).2
    have hencode : (s :: segments).map (encodeText keptInPath) = s :: segments := by
      calc (s :: segments).map (encodeText keptInPath) = (s :: segments).map id :=
            List.map_congr_left fun t ht => encodeText_eq_self (h t ht).kept
        _ = s :: segments := List.map_id _
    calc parse (text (s :: segments))
        = resolve [] ((split (s ++ text segments)).map (encodeText keptInPath)) := rfl
      _ = resolve [] (s :: segments) := by rw [split_of_undivided hbackslash, splitAt_append_text h, hencode]
      _ = s :: segments := by
        rw [resolve_append [] _ fun t ht => ⟨(h t ht).not_above, (h t ht).not_here⟩, List.nil_append]

end Path

end Cadence.Url
