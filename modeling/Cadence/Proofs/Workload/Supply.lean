import Cadence.Proofs.Workload.Contract

/-!
# Workloads that nothing was drawn from

A workload behaves as the source in it does, so keys in order and made-up payloads are honest workloads too. Of a
workload that nothing was drawn from (`Workload.Fresh`), as many items follow as its supply says
(`Fresh.supply_eq`): those of a list are its keys (`item?_keys`), and payloads are numbered from zero on
(`item?_payloads`).
-/

namespace Cadence

namespace Source

variable {σ τ : Type} [Source σ] [Source τ] {f : σ → τ}

/-- One source behaves as another one behind `f`. -/
structure Mirrors (f : σ → τ) : Prop where
  next : ∀ s, next (f s) = ((next s).1, f (next s).2)
  remaining : ∀ s, remaining (f s) = remaining s

lemma Mirrors.after (h : Mirrors f) (s : σ) (k : Nat) : after (f s) k = f (after s k) := by
  induction k generalizing s with
  | zero => rfl
  | succ k ih => rw [Source.after, h.next, ih, Source.after]

lemma Mirrors.item? (h : Mirrors f) (s : σ) (k : Nat) : item? (f s) k = item? s k := by
  rw [Source.item?, h.after, h.next, Source.item?]

/-- A source that behaves as an honest one is honest. -/
lemma Mirrors.honest (h : Mirrors f) {s : σ} (hs : Honest s) : Honest (f s) := by
  intro k
  have hk := hs k
  rw [h.after]
  unfold Truthful at hk ⊢
  rw [h.remaining]
  simp only [h.item?]
  exact hk

end Source

namespace Workload
open Source

lemma mirrors_keys : Mirrors keys := ⟨fun _ => rfl, fun _ => rfl⟩

lemma mirrors_payloads : Mirrors payloads := ⟨fun _ => rfl, fun _ => rfl⟩

/-- Nothing was drawn from a workload. -/
inductive Fresh : Workload → Prop where
  | keys (ks : Array String) : Fresh (.keys (.ofArray ks))
  | payloads (size : Nat) (count : Option Nat) : Fresh (.payloads ⟨size, count, 0⟩)

variable {w : Workload}

lemma Fresh.honest (h : Fresh w) : Honest w := by
  cases h with
  | keys ks => exact mirrors_keys.honest (KeyList.honest _)
  | payloads size count => exact mirrors_payloads.honest (Payloads.honest _)

/-- As many items follow as the supply says. -/
lemma Fresh.supply_eq (h : Fresh w) : w.supply = (remaining w).count? := by
  cases h with
  | keys ks => rfl
  | payloads size count => cases count <;> rfl

end Workload

namespace KeyList
open Source

/-- The items of a list are its keys from the cursor on. -/
lemma item?_eq (l : KeyList) (k : Nat) : item? l k = l.keys[l.cursor + k]?.map Item.key := by
  induction k generalizing l with
  | zero =>
    simp only [item?, after, next, Nat.add_zero]
    cases l.keys[l.cursor]? <;> rfl
  | succ k ih =>
    show item? (next l).2 k = _
    rw [ih]
    simp only [next]
    split
    · rw [show l.cursor + (k + 1) = l.cursor + 1 + k from by omega]
    · next hnone =>
      -- a cursor beyond the keys stays where it is
      have hlast := Array.getElem?_eq_none_iff.mp hnone
      show l.keys[l.cursor + k]?.map Item.key = _
      rw [Array.getElem?_eq_none (by omega), Array.getElem?_eq_none (by omega)]

/-- A list of which `cursor` keys were drawn yields the others. -/
lemma yields (keys : Array String) {cursor : ℕ} (h : cursor ≤ keys.size) :
    Yields (KeyList.mk keys cursor) ((keys.toList.drop cursor).map .key) (KeyList.mk keys keys.size) := by
  induction hleft : keys.size - cursor generalizing cursor with
  | zero =>
    obtain rfl : cursor = keys.size := by omega
    rw [← Array.length_toList, List.drop_length]
    exact .nil
  | succ left ih =>
    have hlt : cursor < keys.size := by omega
    have hnext : next (KeyList.mk keys cursor) = (some (.key keys[cursor]), KeyList.mk keys (cursor + 1)) := by
      simp [next, hlt]
    rw [List.drop_eq_getElem_cons (by simpa using hlt), List.map_cons, Array.getElem_toList]
    exact .cons hnext (ih hlt (by omega))

/-- The keys come in order, and then nothing. -/
lemma drainInto_eq (keys : Array String) {fuel : ℕ} (hfuel : keys.size ≤ fuel) :
    drainInto #[] (KeyList.ofArray keys) fuel = (keys.map Item.key, KeyList.mk keys keys.size) := by
  have hend : next (KeyList.mk keys keys.size) = (none, KeyList.mk keys keys.size) := by simp [next]
  have hlength : (keys.toList.map Item.key).length ≤ fuel := by simpa using hfuel
  rw [ofArray, (yields keys (Nat.zero_le _)).drainInto hend hlength, List.drop_zero, ← Array.toList_map,
    Array.toArray_toList, Array.empty_append]

end KeyList

namespace Payloads
open Source

/-- Nothing was drawn yet from payloads that were accepted. -/
lemma eq_of_create {size : Nat} {count : Option Nat} {p : Payloads} (h : create size count = .ok p) :
    p = ⟨size, count, 0⟩ := by
  unfold create at h
  split at h
  · cases h
  · exact (Except.ok.inj h).symm

/-- Once a count is used up, it stays so. -/
lemma isSpent_add {p : Payloads} (h : p.isSpent = true) (k : Nat) :
    ({ p with issued := p.issued + k } : Payloads).isSpent = true := by
  unfold isSpent at h ⊢
  cases hcount : p.count with
  | none => simp [hcount] at h
  | some n =>
    simp only [hcount, decide_eq_true_eq] at h ⊢
    omega

/-- Payloads are numbered on, as long as their count is not used up. -/
lemma item?_eq (p : Payloads) (k : Nat) :
    item? p k = if ({ p with issued := p.issued + k } : Payloads).isSpent = true then none
      else some (.payload (p.issued + k) p.size) := by
  induction k generalizing p with
  | zero =>
    show (next p).1 = _
    by_cases hspent : p.isSpent = true
    · simp [next, hspent]
    · simp [next, hspent]
  | succ k ih =>
    show item? (next p).2 k = _
    rw [ih]
    simp only [next]
    split
    · next hspent => rw [if_pos (isSpent_add hspent k), if_pos (isSpent_add hspent (k + 1))]
    · rw [Nat.add_right_comm, Nat.add_assoc]

end Payloads

/-- The items of a list of keys that nothing was drawn from are the keys. -/
lemma Workload.item?_keys (ks : Array String) (k : Nat) :
    Source.item? (Workload.keys (.ofArray ks)) k = ks[k]?.map Item.key := by
  rw [mirrors_keys.item?, KeyList.item?_eq]
  simp [KeyList.ofArray]

/-- The payloads of a source that nothing was drawn from are numbered from zero on and of its size. -/
lemma Workload.item?_payloads {size : Nat} {count : Option Nat} {i : Nat} {item : Item}
    (h : Source.item? (Workload.payloads ⟨size, count, 0⟩) i = some item) : item = .payload i size := by
  rw [mirrors_payloads.item?, Payloads.item?_eq] at h
  split at h
  · cases h
  · rw [Nat.zero_add] at h
    exact (Option.some_inj.mp h).symm

end Cadence
