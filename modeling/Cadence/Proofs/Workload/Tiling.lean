import Cadence.Proofs.Workload.Batch
import Cadence.Proofs.Workload.Supply
import Cadence.Workload.Shuffle

/-!
# Batches tile a source

The batches that are drawn from an honest source one after the other take its items in order: every batch is drawn and has
the items at the next `rate` places, as far as there are any (`nth_of_honest`), so all are full until the items run out
(`length_slice`), and the source says that it is exhausted from the batch with its last item on (`isExhausted_turns_iff`).

* `batches_tile_offered_source`: what the sources that come with a run say of themselves, and how batches tile them.
-/

namespace Cadence

/-- Where nothing follows what is missing, there is what comes first. -/
lemma getElem?_filterMap_range {α : Type} {f : ℕ → Option α} (h : ∀ i, f i = none → f (i + 1) = none) (r i : ℕ) :
    ((List.range r).filterMap f)[i]? = if i < r then f i else none := by
  induction r generalizing f i with
  | zero => rfl
  | succ r ih =>
    rw [List.range_succ_eq_map, List.filterMap_cons, List.filterMap_map]
    cases hfirst : f 0 with
    | none =>
      have hnone : ∀ i, f i = none := fun i => Nat.rec hfirst (fun i hi => h i hi) i
      have htail : (List.range r).filterMap (f ∘ Nat.succ) = [] :=
        List.filterMap_eq_nil_iff.mpr fun i _ => hnone (i + 1)
      rw [htail, hnone, ite_self]
      rfl
    | some a =>
      cases i with
      | zero => exact hfirst.symm
      | succ i =>
        rw [List.getElem?_cons_succ, ih (f := f ∘ Nat.succ) fun i => h (i + 1)]
        simp only [Nat.succ_lt_succ_iff, Function.comp_apply, Nat.succ_eq_add_one]

namespace Batch
open Source

variable {σ : Type} [Source σ]

/-- The source after `k` batches were drawn. -/
def rest (rate : ℕ) (s : σ) : ℕ → σ
  | 0 => s
  | k + 1 => (draw rate (rest rate s k)).2

/-- The batch that is drawn after `k` others. -/
def nth (rate : ℕ) (s : σ) (k : ℕ) : Except Fault (Array Item) := (draw rate (rest rate s k)).1

/-- The items at the `rate` places from `k * rate` on, as far as there are any. -/
def slice (rate : ℕ) (s : σ) (k : ℕ) : List Item := (List.range rate).filterMap fun i => item? s (k * rate + i)

/-- Slices in order are the items in order. -/
lemma flatMap_slice (rate : ℕ) (s : σ) (k : ℕ) :
    (List.range k).flatMap (slice rate s) = (List.range (k * rate)).filterMap (item? s) := by
  induction k with
  | zero => rw [Nat.zero_mul]; rfl
  | succ k ih =>
    rw [List.range_succ, List.flatMap_append, List.flatMap_singleton, ih, Nat.succ_mul, List.range_add,
      List.filterMap_append, List.filterMap_map]
    rfl

section Honest

variable {s : σ} (h : Honest s) (rate : ℕ)
include h

lemma rest_of_honest (k : ℕ) : rest rate s k = after s ((remaining s).limit (k * rate)) := by
  induction k with
  | zero =>
    rw [Nat.zero_mul]
    cases remaining s <;> simp [rest, Remaining.limit, after]
  | succ k ih =>
    obtain ⟨items, hdraw, _⟩ := draw_of_honest h rate ((remaining s).limit (k * rate))
    rw [rest, ih, hdraw, Remaining.limit_add, Nat.succ_mul]

lemma getElem?_slice (k i : ℕ) : (slice rate s k)[i]? = if i < rate then item? s (k * rate + i) else none := by
  apply getElem?_filterMap_range
  intro i hnone
  rw [h.item?_eq_none_iff] at hnone ⊢
  exact fun hmore => hnone (hmore.of_le (Nat.le_succ _))

/-- Every batch is drawn, and has the items of its places, as many as there are. -/
theorem nth_of_honest (k : ℕ) :
    nth rate s k = .ok (slice rate s k).toArray ∧
      (slice rate s k).length = ((remaining s).drop (k * rate)).limit rate := by
  obtain ⟨items, hdraw, hsize, hget⟩ := draw_of_honest h rate ((remaining s).limit (k * rate))
  have hthere : ∀ i, i < items.size ↔ (remaining s).Exceeds (k * rate + i) ∧ i < rate := by
    intro i
    rw [hsize, Remaining.lt_limit_iff, Remaining.exceeds_drop, Remaining.exceeds_limit_add]
  -- a batch and its slice have the same item at every place, and both end where the items do
  have hslice : slice rate s k = items.toList := by
    apply List.ext_getElem?
    intro i
    rw [getElem?_slice h, Array.getElem?_toList]
    by_cases hi : i < items.size
    · obtain ⟨hmore, hrate⟩ := (hthere i).mp hi
      rw [if_pos hrate, hget i hi, Remaining.limit_of_exceeds (hmore.of_le (Nat.le_add_right _ _))]
    · rw [Array.getElem?_eq_none (Nat.not_lt.mp hi)]
      split
      · next hrate => exact (h.item?_eq_none_iff _).mpr fun hmore => hi ((hthere i).mpr ⟨hmore, hrate⟩)
      · rfl
  rw [hslice]
  refine ⟨?_, ?_⟩
  · rw [nth, rest_of_honest h, hdraw]
  · rw [Array.length_toList, hsize, Remaining.limit_drop_limit]

/-- A source says that it is exhausted as soon as no batch would have an item. -/
lemma isExhausted_rest (k : ℕ) : isExhausted (rest rate s k) = true ↔ ¬ (remaining s).Exceeds (k * rate) := by
  rw [rest_of_honest h, h.isExhausted_after, Remaining.exceeds_limit]

/-- Batches are full as long as there are items enough, then one has what is left over, and then none has any. -/
lemma length_slice {n : ℕ} (hn : remaining s = .finite n) (hrate : 0 < rate) :
    (∀ k < n / rate, (slice rate s k).length = rate) ∧ (slice rate s (n / rate)).length = n % rate ∧
      ∀ k > n / rate, slice rate s k = [] := by
  have hlength : ∀ k, (slice rate s k).length = min (n - k * rate) rate := by
    intro k
    rw [(nth_of_honest h rate k).2, hn]
    rfl
  have hdiv := Nat.div_add_mod' n rate
  have hmod := Nat.mod_lt n hrate
  refine ⟨fun k hk => ?_, ?_, fun k hk => ?_⟩
  · have hfull : (k + 1) * rate ≤ n / rate * rate := Nat.mul_le_mul_right rate hk
    rw [Nat.succ_mul] at hfull
    rw [hlength]
    omega
  · rw [hlength]
    omega
  · have hnone : (n / rate + 1) * rate ≤ k * rate := Nat.mul_le_mul_right rate hk
    rw [Nat.succ_mul] at hnone
    apply List.eq_nil_of_length_eq_zero
    rw [hlength]
    omega

/-- The batch with the last item is the one after which the source says that it is exhausted. -/
lemma isExhausted_turns_iff (k : ℕ) :
    isExhausted (rest rate s k) = false ∧ isExhausted (rest rate s (k + 1)) = true ↔
      ∃ last, k * rate ≤ last ∧ last < (k + 1) * rate ∧ (item? s last).isSome = true ∧ item? s (last + 1) = none := by
  rw [← Bool.not_eq_true, isExhausted_rest h, isExhausted_rest h, not_not]
  simp only [h.item?_isSome_iff, h.item?_eq_none_iff]
  constructor
  · rintro ⟨hmore, hnone⟩
    cases hr : remaining s with
    | finite n =>
      simp only [hr, Remaining.Exceeds] at hmore hnone ⊢
      exact ⟨n - 1, by omega, by omega, by omega, by omega⟩
    | unbounded =>
      rw [hr] at hnone
      exact absurd trivial hnone
  · rintro ⟨last, hfirst, hlast, hmore, hnone⟩
    exact ⟨hmore.of_le hfirst, fun hbeyond => hnone (hbeyond.of_le hlast)⟩

end Honest

end Batch

namespace Workload
open Source

/-- The sources that come with a run: a list in its order or shuffled, and payloads of a size that is not zero. -/
inductive Offered : Workload → Prop where
  | ordered (keys : Array String) : Offered (.keys (.ofArray keys))
  | shuffled (keys : Array String) (seed : UInt64) : Offered (.keys (.shuffled keys seed))
  | payloads {size : ℕ} {count : Option ℕ} {p : Payloads} : Payloads.create size count = .ok p → Offered (.payloads p)

variable {w : Workload}

lemma Offered.fresh (h : Offered w) : Fresh w := by
  cases h with
  | ordered keys => exact .keys keys
  | shuffled keys seed => exact .keys _
  | payloads h =>
    rw [Payloads.eq_of_create h]
    exact .payloads _ _

/-- However often it was drawn from, a source that comes with a run says that some number of items is left exactly if that
many follow, and that there is no end exactly if there always follows one; keys follow in order, and payloads are numbered
from zero on and all of one size. So batches are always drawn; they take the items in order; as many of them are full as
there are items for, the next one has what is left over, and those after it are empty; and the source says that it is
exhausted from the batch on that has its last item. -/
theorem batches_tile_offered_source (hw : Offered w) (j : ℕ) {rate : ℕ} (hrate : 0 < rate) :
    let s := after w j
    (∀ n, remaining s = .finite n ↔ ∀ i, (item? s i).isSome = true ↔ i < n) ∧
    (remaining s = .unbounded ↔ ∀ i, (item? s i).isSome = true) ∧
    (∀ i, item? s i = item? w (j + i)) ∧
    (∀ keys, w = .keys (.ofArray keys) → ∀ i, item? w i = keys[i]?.map .key) ∧
    (∀ size count p, Payloads.create size count = .ok p → w = .payloads p →
      ∀ i item, item? w i = some item → item = .payload i size) ∧
    ∃ batches : ℕ → List Item,
      (∀ k, Batch.nth rate s k = .ok (batches k).toArray) ∧
      (∀ k, (List.range k).flatMap batches = (List.range (k * rate)).filterMap (item? s)) ∧
      (∀ n, remaining s = .finite n → (∀ k < n / rate, (batches k).length = rate) ∧
        (batches (n / rate)).length = n % rate ∧ ∀ k > n / rate, batches k = []) ∧
      (remaining s = .unbounded → ∀ k, (batches k).length = rate) ∧
      (∀ k, isExhausted (Batch.rest rate s k) = true ↔ ∀ i, item? s (k * rate + i) = none) ∧
      ∀ k, isExhausted (Batch.rest rate s k) = false ∧ isExhausted (Batch.rest rate s (k + 1)) = true ↔
        ∃ last, k * rate ≤ last ∧ last < (k + 1) * rate ∧ (item? s last).isSome = true ∧ item? s (last + 1) = none := by
  intro s
  have h : Honest s := hw.fresh.honest.after j
  refine ⟨fun n => h.remaining_eq_iff (.finite n), ?_, item?_after w j, ?_, ?_, Batch.slice rate s,
    fun k => (Batch.nth_of_honest h rate k).1, Batch.flatMap_slice rate s, fun n hn => Batch.length_slice h rate hn hrate,
    ?_, ?_, Batch.isExhausted_turns_iff h rate⟩
  · rw [h.remaining_eq_iff]
    exact forall_congr' fun i => iff_true_right trivial
  · rintro keys rfl i
    exact item?_keys keys i
  · rintro size count p hp rfl i item hitem
    rw [Payloads.eq_of_create hp] at hitem
    exact item?_payloads hitem
  · intro hend k
    rw [(Batch.nth_of_honest h rate k).2, hend]
    rfl
  · intro k
    rw [Batch.isExhausted_rest h]
    simp only [h.item?_eq_none_iff]
    constructor
    · exact fun hnone i hmore => hnone (hmore.of_le (Nat.le_add_right _ i))
    · exact fun hnone => hnone 0

/-- A shuffled list of five keys at two a batch: two full batches, one with the last key, and empty ones; after the third one
the list says that it is exhausted. -/
theorem five_keys_make_three_batches :
    let w : Workload := .keys (.shuffled #["a", "b", "c", "d", "e"] 7)
    ∃ batches : ℕ → List Item, (∀ k, Batch.nth 2 w k = .ok (batches k).toArray) ∧
      (batches 0).length = 2 ∧ (batches 1).length = 2 ∧ (batches 2).length = 1 ∧ batches 3 = [] ∧
      isExhausted (Batch.rest 2 w 2) = false ∧ isExhausted (Batch.rest 2 w 3) = true := by
  intro w
  obtain ⟨_, _, _, _, _, batches, hdrawn, _, hfinite, _, _, hturns⟩ :=
    batches_tile_offered_source (.shuffled #["a", "b", "c", "d", "e"] 7) 0 (show 0 < 2 by decide)
  obtain ⟨hfull, hlast, hempty⟩ := hfinite 5 (by decide +kernel)
  have hthird := (hturns 2).mpr ⟨4, by decide, by decide, by decide +kernel, by decide +kernel⟩
  exact ⟨batches, hdrawn, hfull 0 (by decide), hfull 1 (by decide), hlast, hempty 3 (by decide), hthird⟩

end Workload
end Cadence
