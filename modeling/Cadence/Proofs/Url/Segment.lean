import Cadence.Proofs.Text.Trim
import Cadence.Proofs.Url.Path

/-!
# Texts that are added to a path

A text that is added to a path as a whole is one step from there (`Step`): into a segment that tells it, or, where the text
reads as dots, to the same place or the one above. A segment is decoded as the text that it tells (`decode_segment`), which
lacks the characters that URLs do without, and so different steps lead to different paths (`Step.target_injective`).
-/

namespace Cadence.Url

open Text

namespace Percent

lemma keptInSegment_ascii (b : UInt8) (h : keptInSegment b = true) : b < 0x80 ∧ b ≠ 0x25 := by
  have htable : ∀ b, (!keptInSegment b || (b < 0x80 && b != 0x25)) = true := of_all_bytes (by decide +kernel)
  simpa [h] using htable b

/-- A text as a segment that tells it. -/
def segment (s : List Char) : List Char := encodeText keptInSegment s

/-- A segment is decoded as the text that it tells. -/
lemma decode_segment (s : List Char) : decode (segment s) = Utf8.encode s := by
  have h := decode_encode keptInSegment_ascii (Utf8.encode s) []
  rwa [List.append_nil, decode, List.append_nil] at h

lemma eq_of_encode_eq {s t : List Char} (h : Utf8.encode s = Utf8.encode t) : s = t := by
  rw [← Utf8.lossy_encode s, h, Utf8.lossy_encode]

lemma segment_injective : Function.Injective segment := by
  intro s t h
  apply eq_of_encode_eq
  rw [← decode_segment, h, decode_segment]

lemma segment_clean {s : List Char} {c : Char} (h : c ∈ segment s) : Kept keptInPath c ∧ c ≠ '/' ∧ c ≠ '\\' := by
  have htable : ∀ b, ((encodeByte keptInSegment b).all fun c => Kept keptInPath c && c != '/' && c != '\\') = true :=
    of_all_bytes (by decide +kernel)
  obtain ⟨b, _, hc⟩ := List.mem_flatMap.mp h
  simpa [and_assoc] using List.all_eq_true.mp (htable b) c hc

end Percent

namespace Path

open Percent

lemma plainDots_eq_nil {s : List Char} (h : plainDots s = []) : s = [] := by
  cases s with
  | nil => rfl
  | cons c s =>
    unfold plainDots at h
    split at h
    · cases h
    · cases h
    · cases h
    · next heq => cases heq

/-- What begins with a dot once its encoded dots are plain is decoded as a dot and what follows. -/
lemma decode_of_plainDots {s t : List Char} (h : plainDots s = '.' :: t) :
    ∃ r, plainDots r = t ∧ decode s = 0x2E :: decode r := by
  unfold plainDots at h
  split at h
  · next r => exact ⟨r, (List.cons.inj h).2, rfl⟩
  · next r => exact ⟨r, (List.cons.inj h).2, rfl⟩
  · next c r _ _ =>
    obtain ⟨rfl, ht⟩ := List.cons.inj h
    exact ⟨r, ht, decode_cons (by decide) r⟩
  · cases h

lemma isAbove_segment {s : List Char} : isAbove (Percent.segment s) = true ↔ s = ['.', '.'] := by
  constructor
  · intro h
    obtain ⟨r, hr, hfirst⟩ := decode_of_plainDots (of_decide_eq_true h)
    obtain ⟨t, ht, hsecond⟩ := decode_of_plainDots hr
    rw [decode_segment, hsecond, plainDots_eq_nil ht] at hfirst
    exact eq_of_encode_eq hfirst
  · rintro rfl
    decide +kernel

lemma isHere_segment {s : List Char} : isHere (Percent.segment s) = true ↔ s = ['.'] := by
  constructor
  · intro h
    have hdecode : decode (Percent.segment s) = [0x2E] := by
      have hmem := List.contains_iff_mem.mp h
      simp only [List.mem_cons, List.not_mem_nil, or_false] at hmem
      rcases hmem with h | h | h
      all_goals
        rw [h]
        decide +kernel
    rw [decode_segment] at hdecode
    exact eq_of_encode_eq hdecode
  · rintro rfl
    decide +kernel

lemma settled_segment {s : List Char} (hhere : s ≠ ['.']) (habove : s ≠ ['.', '.']) : Settled (Percent.segment s) where
  kept _ hc := (segment_clean hc).1
  undivided _ hc := (segment_clean hc).2
  not_above := Bool.eq_false_iff.mpr fun h => habove (isAbove_segment.mp h)
  not_here := Bool.eq_false_iff.mpr fun h => hhere (isHere_segment.mp h)

/-- A text without the characters that URLs do without. -/
def spared (s : List Char) : List Char := s.filter fun c => !isDropped c

/-- A text that a path takes as it is: it does not read as dots, and URLs do without none of its characters. -/
structure Plain (s : List Char) : Prop where
  not_here : s ≠ ['.']
  not_above : s ≠ ['.', '.']
  whole : ∀ c ∈ s, isDropped c = false

lemma spared_eq_self_iff {s : List Char} : spared s = s ↔ ∀ c ∈ s, isDropped c = false := by
  rw [spared, List.filter_eq_self]
  simp only [Bool.not_eq_true']

/-- A step from a place: into a segment that tells a text, none at all, or up. -/
inductive Step where
  | into (s : List Char)
  | stay
  | up
deriving DecidableEq

namespace Step

/-- The step that a text stands for. -/
def ofText (s : List Char) : Step :=
  if s = ['.'] ∨ s = ['.', '.'] then stay
  else if spared s = ['.', '.'] then up
  else into (spared s)

/-- The path that a step leads to. -/
def target (segments : List (List Char)) : Step → List (List Char)
  | into s => segments ++ [Percent.segment s]
  | stay => segments
  | up => segments.dropLast ++ [[]]

/-- A text is told by a segment exactly if a path takes it as it is. -/
lemma ofText_eq_into_iff {s : List Char} : ofText s = into s ↔ Plain s := by
  constructor
  · intro h
    unfold ofText at h
    split at h
    · cases h
    · next hdots =>
      rw [not_or] at hdots
      split at h
      · cases h
      · exact ⟨hdots.1, hdots.2, spared_eq_self_iff.mp (into.inj h)⟩
  · rintro ⟨hhere, habove, hwhole⟩
    rw [ofText, if_neg (not_or.mpr ⟨hhere, habove⟩), spared_eq_self_iff.mpr hwhole, if_neg habove]

end Step

lemma isBlank_of_isDropped {c : Char} (h : isDropped c = true) : isBlank c = true := by
  simp only [isDropped, Bool.or_eq_true, decide_eq_true_eq] at h
  rcases h with (rfl | rfl) | rfl <;> decide

/-- Of a text with no blanks at its ends nothing is left but one dot only if it is one dot. -/
lemma eq_dot_of_spared {s : List Char} (hs : Bare s) (h : spared s = ['.']) : s = ['.'] := by
  cases s with
  | nil => cases h
  | cons c s =>
    have hc : isDropped c = false := by
      cases hdropped : isDropped c with
      | false => rfl
      | true => exact absurd (isBlank_of_isDropped hdropped) (Bool.eq_false_iff.mp (hs.first c rfl))
    rw [spared, List.filter_cons_of_pos (by rw [hc]; rfl)] at h
    obtain ⟨rfl, hrest⟩ := List.cons.inj h
    rcases List.eq_nil_or_concat' s with rfl | ⟨start, d, rfl⟩
    · rfl
    · -- the last character would be dropped, and so a blank
      have hd := List.filter_eq_nil_iff.mp hrest d (by simp)
      have hblank : isBlank d = true := isBlank_of_isDropped (by simpa using hd)
      have hlast := hs.last d (by rw [← List.cons_append, List.getLast?_concat])
      exact absurd hblank (Bool.eq_false_iff.mp hlast)

variable {segments : List (List Char)} {s : List Char}

/-- A text that is added to a path leads where its step does. -/
lemma push_eq (hne : segments ≠ [[]]) (hlast : ∀ t, segments.getLast? = some t → isDrive t = false) (hs : Bare s) :
    push segments s = (Step.ofText s).target segments := by
  by_cases hdots : s = ['.'] ∨ s = ['.', '.']
  · rw [push, if_pos (by simpa using hdots), Step.ofText, if_pos hdots, Step.target]
  rw [push, if_neg (by simpa using hdots), if_neg hne, Step.ofText, if_neg hdots, ← spared, ← Percent.segment]
  by_cases habove : spared s = ['.', '.']
  · rw [if_pos habove, habove, resolve, if_pos (isAbove_segment.mpr rfl), Step.target, leave]
    split
    · next t ht => rw [if_neg (Bool.eq_false_iff.mp (hlast t ht))]
    · next hnil => rw [List.getLast?_eq_none_iff.mp hnil, List.dropLast_nil]
  · have hhere : spared s ≠ ['.'] := fun h => hdots (.inl (eq_dot_of_spared hs h))
    rw [if_neg habove, resolve, if_neg (mt isAbove_segment.mp habove), if_neg (mt isHere_segment.mp hhere), Step.target]

lemma Step.target_ne_nil (hne : segments ≠ []) (step : Step) : step.target segments ≠ [] := by
  cases step with
  | stay => exact hne
  | into | up => exact List.append_ne_nil_of_right_ne_nil _ (List.cons_ne_nil _ _)

/-- From a place that is neither the root nor one with an empty name, different steps lead to different paths. -/
lemma Step.target_injective {front : List (List Char)} {last : List Char} (hlast : last ≠ []) :
    Function.Injective (Step.target (front ++ [last])) := by
  have hdrop : (front ++ [last]).dropLast = front := List.dropLast_concat
  intro p q h
  cases p <;> cases q
  case into.into s t =>
    have hsegment := List.append_cancel_left h
    rw [segment_injective (List.singleton_inj.mp hsegment)]
  case stay.stay => rfl
  case up.up => rfl
  case into.stay | stay.into =>
    have hlength := congrArg List.length h
    simp [target] at hlength
  case into.up | up.into =>
    have hlength := congrArg List.length h
    simp [target] at hlength
  case stay.up =>
    rw [target, target, hdrop] at h
    exact absurd (List.singleton_inj.mp (List.append_cancel_left h)) hlast
  case up.stay =>
    rw [target, target, hdrop] at h
    exact absurd (List.singleton_inj.mp (List.append_cancel_left h)).symm hlast

/-- A text without blanks at its ends leads from a settled path to one. -/
lemma Step.settled_target (h : ∀ t ∈ segments, Settled t) (hs : Bare s) :
    ∀ t ∈ (Step.ofText s).target segments, Settled t := by
  intro t ht
  unfold Step.ofText at ht
  split at ht
  · exact h t ht
  · next hdots =>
    split at ht
    · rcases List.mem_append.mp ht with ht | ht
      · exact h t ((List.dropLast_prefix _).subset ht)
      · rw [List.mem_singleton.mp ht]
        exact settled_nil
    · next habove =>
      rcases List.mem_append.mp ht with ht | ht
      · exact h t ht
      · rw [List.mem_singleton.mp ht]
        exact settled_segment (fun hhere => hdots (.inl (eq_dot_of_spared hs hhere))) habove

/-- Paths of settled segments differ in their texts. -/
lemma eq_of_text_eq {p q : List (List Char)} (hp : ∀ t ∈ p, Settled t) (hq : ∀ t ∈ q, Settled t) (hpne : p ≠ [])
    (hqne : q ≠ []) (h : text p = text q) : p = q := by
  rw [← parse_text hpne hp, h, parse_text hqne hq]

end Path

end Cadence.Url
