import Cadence.Proofs.Text.Utf8
import Cadence.Url.Form
import Mathlib.Data.List.Basic

/-!
# Form encoding is read back

Two texts with a separator between them have the parts of both (`splitAt_append`), and no part holds a separator
(`not_mem_of_mem_splitAt`). So the pairs of a query with a further pair are those that it had, and that pair
(`pairs_append`).
-/

namespace Cadence.Url.Form

open Text

variable {separator : Char}

lemma splitAt_separator (s : List Char) : splitAt separator (separator :: s) = [] :: splitAt separator s := if_pos rfl

lemma splitAt_ne_nil (separator : Char) (s : List Char) : splitAt separator s ≠ [] := by
  cases s with
  | nil => exact List.cons_ne_nil _ _
  | cons c s =>
    unfold splitAt
    split
    · exact List.cons_ne_nil _ _
    · split <;> exact List.cons_ne_nil _ _

/-- What is no separator belongs to the first part. -/
lemma splitAt_cons {c : Char} (hc : c ≠ separator) (s : List Char) :
    ∃ part parts, splitAt separator s = part :: parts ∧ splitAt separator (c :: s) = (c :: part) :: parts := by
  obtain ⟨part, parts, hs⟩ := List.exists_cons_of_ne_nil (splitAt_ne_nil separator s)
  refine ⟨part, parts, hs, ?_⟩
  rw [splitAt, if_neg hc, hs]

lemma splitAt_append (s t : List Char) :
    splitAt separator (s ++ separator :: t) = splitAt separator s ++ splitAt separator t := by
  induction s with
  | nil => exact splitAt_separator t
  | cons c s ih =>
    by_cases hc : c = separator
    · subst hc
      rw [List.cons_append, splitAt_separator, splitAt_separator, ih, List.cons_append]
    · obtain ⟨part, parts, hs, hcons⟩ := splitAt_cons hc s
      rw [hs, List.cons_append] at ih
      rw [hcons, List.cons_append, splitAt, if_neg hc, ih, List.cons_append]

lemma splitAt_of_not_mem {s : List Char} (h : separator ∉ s) : splitAt separator s = [s] := by
  induction s with
  | nil => rfl
  | cons c s ih =>
    rw [List.mem_cons, not_or] at h
    rw [splitAt, if_neg (Ne.symm h.1), ih h.2]

lemma not_mem_of_mem_splitAt {s part : List Char} (h : part ∈ splitAt separator s) : separator ∉ part := by
  induction s generalizing part with
  | nil =>
    rw [List.mem_singleton.mp h]
    exact List.not_mem_nil
  | cons c s ih =>
    by_cases hc : c = separator
    · subst hc
      rw [splitAt_separator] at h
      rcases List.mem_cons.mp h with rfl | h
      · exact List.not_mem_nil
      · exact ih h
    · obtain ⟨first, parts, hs, hcons⟩ := splitAt_cons hc s
      rw [hcons] at h
      rw [hs] at ih
      rcases List.mem_cons.mp h with rfl | h
      · rw [List.mem_cons, not_or]
        exact ⟨Ne.symm hc, ih List.mem_cons_self⟩
      · exact ih (List.mem_cons_of_mem _ h)

/-- The parts of a text are made of its characters. -/
lemma mem_of_mem_splitAt {s part : List Char} (h : part ∈ splitAt separator s) {c : Char} (hc : c ∈ part) : c ∈ s := by
  induction s generalizing part with
  | nil =>
    rw [List.mem_singleton.mp h] at hc
    exact hc
  | cons d s ih =>
    by_cases hd : d = separator
    · subst hd
      rw [splitAt_separator] at h
      rcases List.mem_cons.mp h with rfl | h
      · exact absurd hc List.not_mem_nil
      · exact List.mem_cons_of_mem _ (ih h hc)
    · obtain ⟨first, parts, hs, hcons⟩ := splitAt_cons hd s
      rw [hcons] at h
      rw [hs] at ih
      rcases List.mem_cons.mp h with rfl | h
      · rcases List.mem_cons.mp hc with rfl | hc
        · exact List.mem_cons_self
        · exact List.mem_cons_of_mem _ (ih List.mem_cons_self hc)
      · exact List.mem_cons_of_mem _ (ih (List.mem_cons_of_mem _ h) hc)

lemma decode_encode (s : List Char) : decode (encode s) = s := by rw [decode, bytes_encode, Utf8.lossy_encode]

lemma ofPart_pair (name value : List Char) : ofPart (pair name value) = (name, value) := by
  have hname : ∀ c ∈ encode name, decide (c ≠ '=') = true := fun c hc => decide_eq_true (encode_clean name c hc).2.1
  rw [ofPart, pair, List.append_assoc, List.takeWhile_append_of_pos hname, List.dropWhile_append_of_pos hname,
    List.singleton_append, List.takeWhile_cons_of_neg (by decide), List.dropWhile_cons_of_neg (by decide),
    List.append_nil, List.drop_one, List.tail_cons, decode_encode, decode_encode]

lemma pairs_pair (name value : List Char) : pairs (pair name value) = [(name, value)] := by
  have hclean : '&' ∉ pair name value := by
    simp only [pair, List.mem_append, not_or]
    exact ⟨⟨fun h => (encode_clean _ _ h).1 rfl, by decide⟩, fun h => (encode_clean _ _ h).1 rfl⟩
  have hkept : [pair name value].filter (fun p => !p.isEmpty) = [pair name value] :=
    List.filter_cons_of_pos (by simp [pair])
  rw [pairs, splitAt_of_not_mem hclean, hkept, List.map_singleton, ofPart_pair]

lemma pairs_joined (s t : List Char) : pairs (s ++ ['&'] ++ t) = pairs s ++ pairs t := by
  rw [List.append_assoc, List.singleton_append, pairs, splitAt_append, List.filter_append, List.map_append, pairs, pairs]

/-- A query with a further pair has the pairs that it had, and that one. -/
theorem pairs_append (query name value : List Char) : pairs (append query name value) = pairs query ++ [(name, value)] := by
  unfold append
  split
  · next h =>
    rw [List.isEmpty_iff.mp h, pairs_pair]
    rfl
  · rw [pairs_joined, pairs_pair]

end Cadence.Url.Form
