import Cadence.Proofs.Workload.Shuffle
import Cadence.Proofs.Workload.Supply
import Mathlib.Algebra.Ring.Nat
import Mathlib.Data.Nat.Factorial.Basic

/-!
# Swap indices are in range

One random number serves several places: it is below the product of their numbers (`chunkBound_eq`, `below_lt`), and every
index that is taken from it leaves a number below the product of the places that are left (`Indices.Fits`). So the index of
a place never lies after it (`partner_le`), whichever part of a random number it is.

* `seeded_shuffle_permutes_blindly`: a shuffled list, from its swaps to what is drawn from it.
-/

namespace Cadence.Workload

/-- A bound is a product of as many factors as stay below `2 ^ 32`. -/
lemma chunkBound_eq {product factor fuel : ℕ} (hproduct : product < 2 ^ 32) (hfactor : 2 ≤ factor)
    (hfuel : 2 ^ 32 ≤ product * 2 ^ fuel) (count : ℕ) :
    ∃ k, chunkBound product factor count fuel = (product * factor.ascFactorial k, count + k) ∧
      product * factor.ascFactorial k < 2 ^ 32 ∧ 2 ^ 32 ≤ product * factor.ascFactorial (k + 1) := by
  induction fuel generalizing product factor count with
  | zero => omega
  | succ fuel ih =>
    rw [chunkBound]
    split
    · next hfits =>
      have hdouble : product * 2 ^ (fuel + 1) ≤ product * factor * 2 ^ fuel := by
        rw [Nat.pow_succ', ← Nat.mul_assoc]
        exact Nat.mul_le_mul_right _ (Nat.mul_le_mul_left _ hfactor)
      obtain ⟨k, heq, hlt, hle⟩ := ih hfits (Nat.le_succ_of_le hfactor) (Nat.le_trans hfuel hdouble) (count + 1)
      have hasc : ∀ j, product * factor * (factor + 1).ascFactorial j = product * factor.ascFactorial (j + 1) := by
        intro j
        rw [Nat.mul_assoc, Nat.succ_ascFactorial, Nat.ascFactorial_succ]
      rw [hasc] at heq hlt hle
      exact ⟨k + 1, heq.trans (by rw [Nat.add_assoc, Nat.add_comm 1 k]), hlt, hle⟩
    · next hfull =>
      refine ⟨0, by rw [Nat.ascFactorial_zero, Nat.mul_one, Nat.add_zero], ?_, ?_⟩
      · rwa [Nat.ascFactorial_zero, Nat.mul_one]
      · rw [Nat.ascFactorial_succ, Nat.ascFactorial_zero, Nat.mul_one, Nat.add_zero]
        exact Nat.not_lt.mp hfull

/-- A random number is below its bound, also where a second word carries it. -/
lemma below_lt {bound : ℕ} (hpos : 0 < bound) (hle : bound ≤ 2 ^ 32) (r : Random) : (below bound r).1 < bound := by
  have hw := Random.next32_lt r
  -- the largest word leaves a remainder that is too small for a carry
  have hscaled : r.next32.1 * bound ≤ 4294967295 * bound := Nat.mul_le_mul_right _ (Nat.le_of_lt_succ hw)
  have hresult : r.next32.1 * bound / 4294967296 < bound := by omega
  unfold below
  dsimp only
  split
  · next hcarry =>
    split
    · dsimp only
      omega
    · exact hresult
  · exact hresult

namespace Indices

variable {s : Indices}

/-- What is left of a random number is below the product of the numbers of the places that it still serves. -/
def Fits (s : Indices) : Prop := s.left ≠ 0 → s.chunk < (s.drawn + 1).ascFactorial s.left

lemma fits_start (r : Random) : (start r).Fits := fun _ => Nat.one_pos

lemma refill_drawn (s : Indices) : s.refill.drawn = s.drawn := by
  unfold refill
  split <;> rfl

/-- A number that is left over or fresh serves the next place. -/
lemma Fits.refill (h : s.Fits) (hrange : s.drawn + 1 < 2 ^ 32) :
    s.refill.left ≠ 0 ∧ s.refill.chunk < (s.drawn + 1).ascFactorial s.refill.left := by
  unfold Indices.refill
  split
  · obtain ⟨k, heq, hlt, _⟩ := chunkBound_eq hrange (show 2 ≤ s.drawn + 2 by omega)
      (Nat.le_mul_of_pos_left (2 ^ 32) (Nat.succ_pos s.drawn)) 1
    have hbound : (s.drawn + 1) * (s.drawn + 2).ascFactorial k = (s.drawn + 1).ascFactorial (1 + k) := by
      rw [Nat.succ_ascFactorial, Nat.add_comm 1 k, Nat.ascFactorial_succ]
    rw [heq]
    dsimp only
    rw [hbound] at hlt ⊢
    exact ⟨by omega, below_lt (Nat.ascFactorial_pos _ _) (Nat.le_of_lt hlt) _⟩
  · next hleft => exact ⟨hleft, h hleft⟩

lemma next_drawn (s : Indices) : s.next.2.drawn = s.drawn + 1 := by
  unfold next
  dsimp only
  split <;> rw [refill_drawn]

/-- An index does not lie after its place, and what is left of its random number serves the places that follow. -/
lemma Fits.next (h : s.Fits) (hrange : s.drawn + 1 < 2 ^ 32) : s.next.1 ≤ s.drawn ∧ s.next.2.Fits := by
  obtain ⟨hleft, hchunk⟩ := h.refill hrange
  unfold Indices.next
  dsimp only
  split
  · next hlast =>
    rw [hlast, Nat.ascFactorial_succ, Nat.ascFactorial_zero, Nat.mul_one] at hchunk
    exact ⟨Nat.le_of_lt_succ hchunk, fun hnone => absurd rfl hnone⟩
  · rw [refill_drawn]
    refine ⟨Nat.le_of_lt_succ (Nat.mod_lt _ (Nat.succ_pos _)), fun _ => ?_⟩
    show s.refill.chunk / (s.drawn + 1) < (s.drawn + 1 + 1).ascFactorial (s.refill.left - 1)
    obtain ⟨more, hmore⟩ := Nat.exists_eq_succ_of_ne_zero hleft
    rw [hmore, Nat.ascFactorial_succ, ← Nat.succ_ascFactorial] at hchunk
    rw [hmore]
    exact Nat.div_lt_of_lt_mul hchunk

/-- The indices after the next `k` ones. -/
def after (s : Indices) : ℕ → Indices
  | 0 => s
  | k + 1 => s.next.2.after k

lemma Fits.after {k : ℕ} (h : s.Fits) (hrange : s.drawn + k < 2 ^ 32) :
    (s.after k).Fits ∧ (s.after k).drawn = s.drawn + k := by
  induction k generalizing s with
  | zero => exact ⟨h, rfl⟩
  | succ k ih =>
    have hdrawn := next_drawn s
    have hafter := ih (h.next (by omega)).2 (by omega)
    rw [hdrawn, Nat.add_assoc, Nat.add_comm 1 k] at hafter
    exact hafter

end Indices

/-- The place that place `i` is swapped with. -/
def partner (seed : UInt64) (i : ℕ) : ℕ := ((Indices.start (Random.ofSeed seed)).after i).next.1

/-- A place is never swapped with a later one. -/
theorem partner_le (seed : UInt64) {i : ℕ} (hrange : i + 1 < 2 ^ 32) : partner seed i ≤ i := by
  have hstart := Indices.fits_start (Random.ofSeed seed)
  have hdrawn : (Indices.start (Random.ofSeed seed)).drawn + i = i := Nat.zero_add i
  obtain ⟨hfits, heq⟩ := hstart.after (k := i) (by omega)
  rw [hdrawn] at heq
  have hle := (hfits.next (by omega)).1
  rwa [heq] at hle

variable {α : Type}

lemma swapAll_eq_foldl (s : Indices) (xs : Array α) (todo : ℕ) :
    swapAll s xs todo =
      (List.range todo).foldl (fun ys i => ys.swapIfInBounds (s.drawn + i) (s.after i).next.1) xs := by
  induction todo generalizing s xs with
  | zero => rfl
  | succ n ih =>
    rw [swapAll, ih, List.range_succ_eq_map, List.foldl_cons, List.foldl_map, Indices.next_drawn]
    simp only [Nat.add_right_comm, Nat.add_assoc, Nat.succ_eq_add_one, Indices.after, Nat.add_zero]

/-- A shuffle swaps every place with its partner, from the first one to the last. -/
lemma shuffle_eq_foldl {xs : Array α} (h : 1 < xs.size) (seed : UInt64) :
    shuffle xs seed = (List.range xs.size).foldl (fun ys i => ys.swapIfInBounds i (partner seed i)) xs := by
  have hdrawn : (Indices.start (Random.ofSeed seed)).drawn = 0 := rfl
  rw [shuffle, if_neg (Nat.not_le.mpr h), swapAll_eq_foldl]
  simp only [hdrawn, Nat.zero_add, partner]

open Source

/-- What is drawn from a shuffled list until nothing comes are its keys, each as often, in an order that the seed and their
number fix: a list of at most one key stays as it is; else each place in turn is swapped with a place that is not after it.
So no swap is out of range, and whatever the keys are replaced by, it comes out where they did. -/
theorem seeded_shuffle_permutes_blindly (keys : Array String) (seed : UInt64) (hfew : keys.size < 2 ^ 32 - 1) :
    (∀ fuel, keys.size ≤ fuel → ∃ t, drainInto #[] (KeyList.shuffled keys seed) fuel =
      ((shuffle keys seed).map Item.key, t) ∧ next t = (none, t)) ∧
    (shuffle keys seed).toList.Perm keys.toList ∧
    (∀ i < keys.size, partner seed i ≤ i ∧ partner seed i < keys.size) ∧
    (1 < keys.size → shuffle keys seed =
      (List.range keys.size).foldl (fun ks i => ks.swapIfInBounds i (partner seed i)) keys) ∧
    (keys.size ≤ 1 → shuffle keys seed = keys) ∧
    (∀ (α : Type) (f : String → α), shuffle (keys.map f) seed = (shuffle keys seed).map f) ∧
    (∀ (α : Type) (xs : Array α), xs.size = keys.size →
      (shuffle xs seed).toList = (places keys.size seed).filterMap fun i => xs[i]?) := by
  refine ⟨fun fuel hfuel => ⟨_, KeyList.drainInto_eq _ ?_, ?_⟩, shuffle_perm keys seed, fun i hi => ?_,
    fun hmany => shuffle_eq_foldl hmany seed, fun hone => shuffle_of_size_le_one hone seed,
    fun α f => shuffle_map f keys seed, fun α xs hsize => hsize ▸ shuffle_eq_places xs seed⟩
  · rwa [shuffle_size]
  · simp [next]
  · have hle : partner seed i ≤ i := partner_le seed (by omega)
    exact ⟨hle, Nat.lt_of_le_of_lt hle hi⟩

/-- Fifteen keys, two of them the same, take two random numbers: what is left of the first one is the index of place 11. -/
theorem fifteen_keys_are_shuffled :
    let keys := #["a", "b", "c", "d", "e", "f", "g", "h", "i", "j", "k", "l", "m", "n", "a"]
    (∃ t, drainInto #[] (KeyList.shuffled keys 7) 15 =
      (#["l", "m", "d", "j", "a", "h", "c", "k", "n", "g", "b", "i", "f", "a", "e"].map Item.key, t)) ∧
    partner 7 11 ≤ 11 ∧ ((Indices.start (Random.ofSeed 7)).after 11).left = 1 ∧
    ((Indices.start (Random.ofSeed 7)).after 12).left = 0 := by
  intro keys
  have horder : shuffle keys 7 = #["l", "m", "d", "j", "a", "h", "c", "k", "n", "g", "b", "i", "f", "a", "e"] := by
    decide +kernel
  obtain ⟨hdrain, _, hpartner, _⟩ := seeded_shuffle_permutes_blindly keys 7 (by decide)
  obtain ⟨t, ht, _⟩ := hdrain 15 (by decide)
  exact ⟨⟨t, horder ▸ ht⟩, (hpartner 11 (by decide)).1, by decide +kernel, by decide +kernel⟩

end Cadence.Workload
