import Cadence.Workload
import Mathlib.Tactic.Common

/-!
# The contract of a source

A source is truthful if it yields exactly as many items as it says are left, and honest if it stays truthful however
often it is drawn from. `Source.after` is the source after some draws and `Source.item?` the item of the next one;
`Source.Yields` says which items some draws yielded.

* `Remaining.lt_limit_iff`, `Remaining.limit_add`: which items are among the first ones, and that these can be taken
  in two parts.
* `Honest.remaining_after`: every draw takes one from what an honest source says is left.
* `Honest.item?_isSome_iff`: an honest source has a `k`-th item exactly if it says that more than `k` are left.
* `KeyList.honest`, `Payloads.honest`: identifiers in order and made-up payloads are honest.
-/

namespace Cadence

/-- What is left after `k` more items. -/
def Remaining.drop (r : Remaining) (k : Nat) : Remaining :=
  match r with
  | .finite n => .finite (n - k)
  | .unbounded => .unbounded

/-- As many items as are left, but at most `k`. -/
def Remaining.limit (r : Remaining) (k : Nat) : Nat :=
  match r with
  | .finite n => min n k
  | .unbounded => k

/-- How many items are left, if there is an end. -/
def Remaining.count? : Remaining → Option Nat
  | .finite n => some n
  | .unbounded => none

/-- More than `k` items are left. -/
def Remaining.Exceeds (r : Remaining) (k : Nat) : Prop :=
  match r with
  | .finite n => k < n
  | .unbounded => True

namespace Remaining

lemma Exceeds.of_le {r : Remaining} {j k : Nat} (h : r.Exceeds k) (hjk : j ≤ k) : r.Exceeds j := by
  cases r with
  | finite n => exact Nat.lt_of_le_of_lt hjk h
  | unbounded => trivial

/-- A number of items is fixed by which of them there are. -/
lemma eq_of_exceeds {r r' : Remaining} (h : ∀ k, r.Exceeds k ↔ r'.Exceeds k) : r = r' := by
  cases r with
  | finite n =>
    cases r' with
    | finite m =>
      have hn := h n
      have hm := h m
      simp only [Exceeds, Nat.lt_irrefl, false_iff, iff_false, Nat.not_lt] at hn hm
      rw [Nat.le_antisymm hm hn]
    | unbounded => exact absurd ((h n).mpr trivial) (Nat.lt_irrefl n)
  | unbounded =>
    cases r' with
    | finite m => exact absurd ((h m).mp trivial) (Nat.lt_irrefl m)
    | unbounded => rfl

/-- Items beyond the first `j`. -/
lemma exceeds_drop (r : Remaining) (j k : Nat) : (r.drop j).Exceeds k ↔ r.Exceeds (j + k) := by
  cases r with
  | finite n => simp only [drop, Exceeds]; omega
  | unbounded => exact Iff.rfl

/-- An item is one of the first `k` that are left exactly if it is left at all and one of the first `k`. -/
lemma lt_limit_iff {r : Remaining} {i k : Nat} : i < r.limit k ↔ r.Exceeds i ∧ i < k := by
  cases r with
  | finite n => exact Nat.lt_min
  | unbounded => exact ⟨fun h => ⟨trivial, h⟩, And.right⟩

lemma limit_le (r : Remaining) (k : Nat) : r.limit k ≤ k := by
  cases r with
  | finite n => exact Nat.min_le_right n k
  | unbounded => exact Nat.le_refl k

lemma limit_of_exceeds {r : Remaining} {k : Nat} (h : r.Exceeds k) : r.limit k = k := by
  cases r with
  | finite n => exact Nat.min_eq_right (Nat.le_of_lt h)
  | unbounded => rfl

lemma limit_of_not_exceeds {n k : Nat} (h : ¬ (finite n).Exceeds k) : (finite n).limit k = n :=
  Nat.min_eq_left (Nat.not_lt.mp h)

/-- Whether there is an item beyond the first `k` ones does not depend on there being that many. -/
lemma exceeds_limit_add (r : Remaining) (k i : Nat) : r.Exceeds (r.limit k + i) ↔ r.Exceeds (k + i) := by
  cases r with
  | finite n => simp only [Exceeds, limit]; omega
  | unbounded => exact Iff.rfl

/-- Whether more than a limited number of items are left does not depend on the limit being reached. -/
lemma exceeds_limit (r : Remaining) (k : Nat) : r.Exceeds (r.limit k) ↔ r.Exceeds k := exceeds_limit_add r k 0

lemma limit_drop_limit (r : Remaining) (j k : Nat) : (r.drop (r.limit j)).limit k = (r.drop j).limit k := by
  cases r with
  | finite n => simp only [drop, limit]; omega
  | unbounded => rfl

lemma limit_add (r : Remaining) (j k : Nat) : r.limit j + (r.drop (r.limit j)).limit k = r.limit (j + k) := by
  cases r with
  | finite n => simp only [limit, drop]; omega
  | unbounded => rfl

end Remaining

namespace Source

variable {σ : Type} [Source σ]

/-- The source after `k` draws. -/
def after (s : σ) : Nat → σ
  | 0 => s
  | k + 1 => after (next s).2 k

/-- What the draw after `k` draws yields. -/
def item? (s : σ) (k : Nat) : Option Item := (next (after s k)).1

/-- As many items follow as the source says are left. -/
def Truthful (s : σ) : Prop :=
  match remaining s with
  | .finite n => ∀ k, (item? s k).isSome = true ↔ k < n
  | .unbounded => ∀ k, (item? s k).isSome = true

/-- The source is truthful now and after any number of draws. -/
def Honest (s : σ) : Prop := ∀ k, Truthful (after s k)

/-- From `s` to `t` these items were drawn, one after the other. -/
inductive Yields : σ → List Item → σ → Prop where
  | nil {s} : Yields s [] s
  | cons {s item t items u} : next s = (some item, t) → Yields t items u → Yields s (item :: items) u

lemma Yields.after_eq {s t : σ} {items} (h : Yields s items t) : t = after s items.length := by
  induction h with
  | nil => rfl
  | cons hnext _ ih => rw [ih, List.length_cons, after, hnext]

/-- What is drawn from a source until nothing comes are the items that it yields. -/
lemma Yields.drainInto {s t : σ} {items fuel} (h : Yields s items t) (hend : next t = (none, t))
    (hfuel : items.length ≤ fuel) (acc : Array Item) : drainInto acc s fuel = (acc ++ items.toArray, t) := by
  induction h generalizing acc fuel with
  | nil =>
    cases fuel with
    | zero => simp [Source.drainInto]
    | succ fuel => simp [Source.drainInto, hend]
  | cons hnext _ ih =>
    cases fuel with
    | zero => cases hfuel
    | succ fuel =>
      rw [Source.drainInto, hnext]
      dsimp only
      rw [ih hend (Nat.le_of_succ_le_succ hfuel), List.toArray_cons, ← Array.append_assoc, Array.append_singleton]

lemma after_add (s : σ) (j k : Nat) : after s (j + k) = after (after s j) k := by
  induction j generalizing s with
  | zero => rw [Nat.zero_add]; rfl
  | succ j ih =>
    rw [show j + 1 + k = (j + k) + 1 from by omega]
    exact ih (next s).2

/-- The items of a source that was drawn from are the later ones. -/
lemma item?_after (s : σ) (j k : Nat) : item? (after s j) k = item? s (j + k) := by
  rw [item?, item?, after_add]

/-- An honest source stays honest. -/
lemma Honest.after {s : σ} (h : Honest s) (j : Nat) : Honest (Source.after s j) := by
  intro k
  rw [← after_add]
  exact h (j + k)

/-- An honest source has a `k`-th item exactly if it says that more than `k` are left. -/
lemma Honest.item?_isSome_iff {s : σ} (h : Honest s) (k : Nat) :
    (item? s k).isSome = true ↔ (remaining s).Exceeds k := by
  have h0 : Truthful s := h 0
  unfold Truthful at h0
  split at h0
  · next n hn => rw [hn]; exact h0 k
  · next hn => rw [hn]; exact iff_true_intro (h0 k)

lemma Honest.item?_eq_none_iff {s : σ} (h : Honest s) (k : Nat) : item? s k = none ↔ ¬ (remaining s).Exceeds k := by
  rw [← h.item?_isSome_iff, Bool.not_eq_true, Option.isSome_eq_false_iff, Option.isNone_iff_eq_none]

/-- An honest source says how many items follow, and is the only one to say so. -/
lemma Honest.remaining_eq_iff {s : σ} (h : Honest s) (r : Remaining) :
    remaining s = r ↔ ∀ k, (item? s k).isSome = true ↔ r.Exceeds k := by
  constructor
  · rintro rfl
    exact h.item?_isSome_iff
  · intro hr
    apply Remaining.eq_of_exceeds
    intro k
    rw [← h.item?_isSome_iff, hr]

/-- Every draw takes one from what an honest source says is left. -/
lemma Honest.remaining_after {s : σ} (h : Honest s) (j : Nat) :
    remaining (Source.after s j) = (remaining s).drop j := by
  apply ((h.after j).remaining_eq_iff _).mpr
  intro k
  rw [item?_after, h.item?_isSome_iff, Remaining.exceeds_drop]

/-- An honest source says that it is exhausted exactly when no further item comes. -/
lemma Honest.isExhausted_after {s : σ} (h : Honest s) (j : Nat) :
    isExhausted (Source.after s j) = true ↔ ¬ (remaining s).Exceeds j := by
  unfold isExhausted
  rw [h.remaining_after]
  cases remaining s with
  | finite n =>
    simp only [Remaining.drop, Remaining.Exceeds, beq_iff_eq, Remaining.finite.injEq]
    omega
  | unbounded => simp [Remaining.drop, Remaining.Exceeds]

/-- A source is honest if it yields an item exactly when something is left, and a draw takes one from what is left. -/
lemma honest_of_next (hitem : ∀ s : σ, (next s).1.isSome = true ↔ (remaining s).Exceeds 0)
    (hdraw : ∀ s : σ, remaining (next s).2 = (remaining s).drop 1) (s : σ) : Honest s := by
  have hrem : ∀ (k : Nat) (s : σ), remaining (after s k) = (remaining s).drop k := by
    intro k
    induction k with
    | zero => intro s; simp only [after]; cases remaining s <;> rfl
    | succ k ih =>
      intro s
      rw [after, ih, hdraw]
      cases remaining s with
      | finite n => simp only [Remaining.drop, Remaining.finite.injEq]; omega
      | unbounded => rfl
  have htrue : ∀ s : σ, Truthful s := by
    intro s
    have hk : ∀ k, (item? s k).isSome = true ↔ (remaining s).Exceeds k := by
      intro k
      rw [item?, hitem, hrem, Remaining.exceeds_drop, Nat.add_zero]
    unfold Truthful
    split
    · next n hn => rw [hn] at hk; exact hk
    · next hn => rw [hn] at hk; exact fun k => (hk k).mpr trivial
  exact fun k => htrue (after s k)

end Source

/-- Identifiers in order are honest. -/
theorem KeyList.honest (l : KeyList) : Source.Honest l := by
  refine Source.honest_of_next (fun l => ?_) (fun l => ?_) l
  · simp only [Source.next, Source.remaining, Remaining.Exceeds]
    split
    · next k hk =>
      have := (Array.getElem?_eq_some_iff.mp hk).1
      simp only [Option.isSome_some, true_iff]
      omega
    · next hk =>
      have := Array.getElem?_eq_none_iff.mp hk
      simp only [Option.isSome_none, Bool.false_eq_true, false_iff]
      omega
  · simp only [Source.next, Source.remaining, Remaining.drop]
    split
    · simp only [Remaining.finite.injEq]
      omega
    · next hk =>
      have := Array.getElem?_eq_none_iff.mp hk
      simp only [Remaining.finite.injEq]
      omega

/-- Made-up payloads are honest. -/
theorem Payloads.honest (p : Payloads) : Source.Honest p := by
  refine Source.honest_of_next (fun p => ?_) (fun p => ?_) p
  · cases hc : p.count with
    | none => simp [Source.next, Source.remaining, Payloads.isSpent, hc, Remaining.Exceeds]
    | some n =>
      by_cases hn : n ≤ p.issued
      · simp [Source.next, Source.remaining, Payloads.isSpent, hc, hn, Remaining.Exceeds]
      · simp [Source.next, Source.remaining, Payloads.isSpent, hc, hn, Remaining.Exceeds]
        omega
  · cases hc : p.count with
    | none => simp [Source.next, Source.remaining, Payloads.isSpent, hc, Remaining.drop]
    | some n =>
      by_cases hn : n ≤ p.issued
      · simp [Source.next, Source.remaining, Payloads.isSpent, hc, hn, Remaining.drop]
      · simp [Source.next, Source.remaining, Payloads.isSpent, hc, hn, Remaining.drop]
        omega

end Cadence
