import Cadence.Workload.Shuffle
import Mathlib.Data.List.Basic

/-!
# What a shuffle keeps

Whatever the seed, the elements are those of the list (`shuffle_perm`), and the places to which they go do not depend on
what they are (`shuffle_map`): the order of a shuffled list is that of its places (`shuffle_eq_places`).
-/

namespace Cadence.Workload

variable {α β : Type}

lemma swapIfInBounds_perm (xs : Array α) (i j : Nat) : (xs.swapIfInBounds i j).toList.Perm xs.toList := by
  unfold Array.swapIfInBounds
  split
  · split
    · exact (Array.swap_perm _ _).toList
    · exact .refl _
  · exact .refl _

lemma map_swap (f : α → β) (xs : Array α) (i j : Nat) (hi : i < xs.size) (hj : j < xs.size) :
    (xs.map f).swap i j (by simpa using hi) (by simpa using hj) = (xs.swap i j hi hj).map f := by
  apply Array.ext
  · simp
  · intro k _ _
    simp only [Array.getElem_swap, Array.getElem_map]
    split
    · rfl
    · split <;> rfl

lemma map_swapIfInBounds (f : α → β) (xs : Array α) (i j : Nat) :
    (xs.map f).swapIfInBounds i j = (xs.swapIfInBounds i j).map f := by
  unfold Array.swapIfInBounds
  simp only [Array.size_map]
  split
  · split
    · exact map_swap f xs i j _ _
    · rfl
  · rfl

lemma swapAll_perm (s : Indices) (xs : Array α) (todo : Nat) : (swapAll s xs todo).toList.Perm xs.toList := by
  induction todo generalizing s xs with
  | zero => exact .refl _
  | succ n ih => exact (ih _ _).trans (swapIfInBounds_perm _ _ _)

lemma swapAll_map (f : α → β) (s : Indices) (xs : Array α) (todo : Nat) :
    swapAll s (xs.map f) todo = (swapAll s xs todo).map f := by
  induction todo generalizing s xs with
  | zero => rfl
  | succ n ih => rw [swapAll, map_swapIfInBounds, ih, swapAll]

/-- A shuffled list has the elements of the list, each as often. -/
theorem shuffle_perm (xs : Array α) (seed : UInt64) : (shuffle xs seed).toList.Perm xs.toList := by
  unfold shuffle
  split
  · exact .refl _
  · exact swapAll_perm _ _ _

/-- A shuffle does not look at the elements. -/
theorem shuffle_map (f : α → β) (xs : Array α) (seed : UInt64) :
    shuffle (xs.map f) seed = (shuffle xs seed).map f := by
  unfold shuffle
  rw [Array.size_map]
  split
  · rfl
  · exact swapAll_map f _ _ _

/-- The places of `n` elements in the order that a seed fixes. -/
def places (n : Nat) (seed : UInt64) : List Nat := (shuffle (Array.range n) seed).toList

/-- A shuffled list has the element of each place where the shuffled places have the place. -/
theorem shuffle_eq_places (xs : Array α) (seed : UInt64) :
    (shuffle xs seed).toList = (places xs.size seed).filterMap fun i => xs[i]? := by
  have hplaces : ((Array.range xs.size).map fun i => xs[i]?) = xs.map some := by
    apply Array.ext
    · simp
    · intro i hi _
      have hi : i < xs.size := by simpa using hi
      simp [hi]
  have hmap : (shuffle xs seed).map some = (shuffle (Array.range xs.size) seed).map fun i => xs[i]? := by
    rw [← shuffle_map, ← hplaces, shuffle_map]
  have hlist : (shuffle xs seed).toList.map some = (places xs.size seed).map fun i => xs[i]? := by
    rw [← Array.toList_map, hmap, Array.toList_map, places]
  calc (shuffle xs seed).toList
      = ((shuffle xs seed).toList.map some).filterMap id := by simp
    _ = (places xs.size seed).filterMap fun i => xs[i]? := by rw [hlist, List.filterMap_map]; rfl

end Cadence.Workload
