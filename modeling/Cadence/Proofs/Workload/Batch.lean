import Cadence.Batch
import Cadence.Proofs.Workload.Contract

/-!
# Batches of a source

A batch that is drawn has the items that the source yielded (`drawInto_ok`); one that is not fails only because the
source broke its contract (`drawInto_error`). Of an honest source every batch is drawn, and has the items that follow,
at most `rate` of them (`draw_of_honest`).
-/

namespace Cadence.Batch
open Source

variable {σ : Type} [Source σ]

/-- From `s` to `t` these batches were drawn, each with as many items as it should have. -/
inductive Series (rate : Nat) (s : σ) : List (List Item) → σ → Prop where
  | nil : Series rate s [] s
  | snoc {batches t batch u} :
    Series rate s batches t →
    Yields t batch u →
    batch.length = wanted rate t →
    Series rate s (batches ++ [batch]) u

/-- What was drawn is what the source yielded. -/
lemma drawInto_ok {batch items : Array Item} {s t : σ} {want} (h : drawInto batch s want = (.ok items, t)) :
    ∃ drawn, items = batch ++ drawn.toArray ∧ Yields s drawn t ∧ drawn.length = want := by
  induction want generalizing batch s with
  | zero =>
    cases h
    exact ⟨[], by simp, .nil, rfl⟩
  | succ n ih =>
    unfold drawInto at h
    split at h
    · next item u hnext =>
      obtain ⟨drawn, rfl, hy, hlen⟩ := ih h
      exact ⟨item :: drawn, by simp, .cons hnext hy, by rw [List.length_cons, hlen]⟩
    · cases h

/-- A batch is not drawn only because the source yielded fewer items than it should have, and tells what the source
says is left then. -/
lemma drawInto_error {batch : Array Item} {s u : σ} {want f} (h : drawInto batch s want = (.error f, u)) :
    ∃ drawn t, Yields s drawn t ∧ drawn.length < want ∧ next t = (none, u) ∧ f = .sourceContract (claimed u) := by
  induction want generalizing batch s with
  | zero => cases h
  | succ n ih =>
    unfold drawInto at h
    split at h
    · next item v hnext =>
      obtain ⟨drawn, t, hy, hlen, hnone, hf⟩ := ih h
      exact ⟨item :: drawn, t, .cons hnext hy, Nat.succ_lt_succ hlen, hnone, hf⟩
    · next v hnext =>
      cases h
      exact ⟨[], s, .nil, Nat.succ_pos n, hnext, rfl⟩

/-- A batch is not drawn only because the source broke its contract. -/
lemma draw_fault {rate : Nat} {s t : σ} {f} (h : draw rate s = (.error f, t)) : f = .sourceContract (claimed t) := by
  obtain ⟨_, _, _, _, _, hf⟩ := drawInto_error h
  exact hf

/-- Some number of draws leads through a series of batches. -/
lemma Series.after_eq {rate : Nat} {s t : σ} {batches} (h : Series rate s batches t) : ∃ j, t = after s j := by
  induction h with
  | nil => exact ⟨0, rfl⟩
  | snoc _ hy _ ih =>
    obtain ⟨j, rfl⟩ := ih
    exact ⟨_, hy.after_eq.trans (after_add s j _).symm⟩

/-- As long as there are items, drawing takes them in order. -/
lemma drawInto_of_items {want : Nat} {s : σ} (h : ∀ k < want, (item? s k).isSome = true)
    (batch : Array Item) :
    ∃ items, drawInto batch s want = (.ok (batch ++ items), after s want) ∧ items.size = want ∧
      ∀ k < want, items[k]? = item? s k := by
  induction want generalizing s batch with
  | zero => exact ⟨#[], by simp [drawInto, after], rfl, nofun⟩
  | succ n ih =>
    obtain ⟨item, hitem⟩ := Option.isSome_iff_exists.mp (h 0 (Nat.succ_pos n))
    have hnext : next s = (some item, (next s).2) := Prod.ext hitem rfl
    have hrest : ∀ k < n, (item? (next s).2 k).isSome = true := fun k hk => h (k + 1) (by omega)
    obtain ⟨items, hdraw, hsize, hget⟩ := ih hrest (batch.push item)
    refine ⟨#[item] ++ items, ?_, ?_, ?_⟩
    · rw [drawInto, hnext]
      simpa [after] using hdraw
    · simp only [Array.size_append, List.size_toArray, List.length_singleton, hsize]
      omega
    · intro k hk
      cases k with
      | zero =>
        rw [Array.getElem?_append_left (by simp)]
        exact hitem.symm
      | succ k =>
        rw [Array.getElem?_append_right (by simp)]
        exact hget k (by omega)

/-- The next batch of an honest source that was drawn from `j` times. -/
lemma draw_of_honest {s : σ} (h : Honest s) (rate j : Nat) :
    ∃ items, draw rate (after s j) = (.ok items, after s (j + ((remaining s).drop j).limit rate)) ∧
      items.size = ((remaining s).drop j).limit rate ∧
      ∀ k < items.size, items[k]? = item? s (j + k) := by
  have hwant : wanted rate (after s j) = ((remaining s).drop j).limit rate := by
    unfold wanted
    rw [h.remaining_after]
    cases remaining s <;> rfl
  have hitems : ∀ k < wanted rate (after s j), (item? (after s j) k).isSome = true := by
    intro k hk
    rw [(h.after j).item?_isSome_iff, h.remaining_after]
    rw [hwant] at hk
    exact (Remaining.lt_limit_iff.mp hk).1
  obtain ⟨items, hdraw, hsize, hget⟩ := drawInto_of_items hitems #[]
  refine ⟨items, ?_, hsize.trans hwant, fun k hk => ?_⟩
  · rw [draw, hdraw, hwant, after_add]
    simp
  · rw [← item?_after]
    exact hget k (hsize ▸ hk)

end Cadence.Batch
