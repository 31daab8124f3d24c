import Mathlib.Data.List.Sort

/-!
# Values by rank

The value of a rank among others (`ranked`) without sorting them: it is at most `x` exactly if that many of the values are
(`ranked_le_iff`). So it grows with its rank, and with the values.
-/

namespace Cadence.Latency

/-- The value of a rank, the smallest one having rank one. -/
def ranked (c : ℕ) (values : List ℕ) : Option ℕ := (values.mergeSort (· ≤ ·))[c - 1]?

variable {c c' v v' x : ℕ} {values values' : List ℕ}

lemma exists_ranked (hc : 0 < c) (hle : c ≤ values.length) : ∃ v, ranked c values = some v := by
  have hlt : c - 1 < (values.mergeSort (· ≤ ·)).length := by
    rw [List.length_mergeSort]
    omega
  exact ⟨_, List.getElem?_eq_getElem hlt⟩

lemma mem_of_ranked (h : ranked c values = some v) : v ∈ values :=
  List.mem_mergeSort.mp (List.mem_of_getElem? h)

lemma le_length_of_ranked (h : ranked c values = some v) : c ≤ values.length := by
  obtain ⟨hlt, _⟩ := List.getElem?_eq_some_iff.mp h
  rw [List.length_mergeSort] at hlt
  omega

lemma countP_eq_zero_of_lt {first : ℕ} {rest : List ℕ} (hsorted : (first :: rest).Pairwise (· ≤ ·)) (hx : x < first) :
    (first :: rest).countP (· ≤ x) = 0 := by
  rw [List.countP_eq_zero]
  intro y hy
  rw [decide_eq_true_eq, not_le]
  rcases List.mem_cons.mp hy with rfl | hy
  · exact hx
  · exact hx.trans_le (List.rel_of_pairwise_cons hsorted hy)

/-- Of ascending values the ones up to a bound come first. -/
lemma getElem?_le_iff {sorted : List ℕ} {k : ℕ} (hsorted : sorted.Pairwise (· ≤ ·)) (h : sorted[k]? = some v) :
    v ≤ x ↔ k < sorted.countP (· ≤ x) := by
  induction sorted generalizing k with
  | nil => cases h
  | cons first rest ih =>
    rcases Nat.lt_or_ge x first with hx | hx
    · have hv : first ≤ v := by
        rcases List.mem_cons.mp (List.mem_of_getElem? h) with rfl | hv
        · exact le_rfl
        · exact List.rel_of_pairwise_cons hsorted hv
      rw [countP_eq_zero_of_lt hsorted hx]
      omega
    · rw [List.countP_cons_of_pos (p := (· ≤ x)) (decide_eq_true hx)]
      cases k with
      | zero =>
        obtain rfl : first = v := Option.some_inj.mp h
        omega
      | succ k =>
        rw [ih hsorted.of_cons h]
        omega

theorem ranked_le_iff (hc : 0 < c) (h : ranked c values = some v) : v ≤ x ↔ c ≤ values.countP (· ≤ x) := by
  rw [getElem?_le_iff (List.pairwise_mergeSort' _ values) h, (List.mergeSort_perm values _).countP_eq]
  omega

lemma ranked_mono_rank (hc : 0 < c) (hcc : c ≤ c') (h : ranked c values = some v) (h' : ranked c' values = some v') :
    v ≤ v' := by
  rw [ranked_le_iff hc h]
  exact hcc.trans ((ranked_le_iff (hc.trans_le hcc) h').mp le_rfl)

/-- The value of the last rank is the largest one. -/
lemma le_of_ranked_length {w : ℕ} (h : ranked values.length values = some v) (hw : w ∈ values) : w ≤ v := by
  have hall := (ranked_le_iff (List.length_pos_of_mem hw) h).mp le_rfl
  exact of_decide_eq_true (List.countP_eq_length.mp (le_antisymm List.countP_le_length hall) w hw)

/-- Of larger values no more are up to a bound. -/
lemma countP_anti (h : List.Forall₂ (· ≤ ·) values values') : values'.countP (· ≤ x) ≤ values.countP (· ≤ x) := by
  induction h with
  | nil => exact le_rfl
  | @cons v v' _ _ hle _ ih =>
    rcases Nat.lt_or_ge x v' with hx | hx
    · rw [List.countP_cons_of_neg (p := (· ≤ x)) (by simpa using hx)]
      exact ih.trans (List.sublist_cons_self _ _).countP_le
    · rw [List.countP_cons_of_pos (p := (· ≤ x)) (decide_eq_true hx),
        List.countP_cons_of_pos (p := (· ≤ x)) (decide_eq_true (hle.trans hx))]
      exact Nat.succ_le_succ ih

/-- Values that are larger place by place are larger rank by rank. -/
theorem ranked_mono (hc : 0 < c) (hvalues : List.Forall₂ (· ≤ ·) values values') (h : ranked c values = some v)
    (h' : ranked c values' = some v') : v ≤ v' := by
  rw [ranked_le_iff hc h]
  exact ((ranked_le_iff hc h').mp le_rfl).trans (countP_anti hvalues)

/-- Where there is no value of a rank, nothing is smaller than what stands for it. -/
lemma getD_ranked_mono (hc : 0 < c) (hvalues : List.Forall₂ (· ≤ ·) values values') :
    (ranked c values).getD 0 ≤ (ranked c values').getD 0 := by
  cases h : ranked c values with
  | none => exact Nat.zero_le _
  | some v =>
    obtain ⟨v', h'⟩ := exists_ranked hc ((le_length_of_ranked h).trans_eq hvalues.length_eq)
    rw [h']
    exact ranked_mono hc hvalues h h'

/-- A function that grows does not change ranks. -/
theorem ranked_map {f : ℕ → ℕ} (hf : Monotone f) (c : ℕ) (values : List ℕ) :
    ranked c (values.map f) = (ranked c values).map f := by
  have hsorted : (values.map f).mergeSort (· ≤ ·) = (values.mergeSort (· ≤ ·)).map f := by
    apply List.Perm.eq_of_sortedLE List.sortedLE_mergeSort
    · exact (List.sortedLE_mergeSort.pairwise.map f hf).sortedLE
    · exact (List.mergeSort_perm _ _).trans ((List.mergeSort_perm _ _).map f).symm
  unfold ranked
  rw [hsorted, List.getElem?_map]

end Cadence.Latency
