import Cadence.Workload
import Cadence.Workload.Random

/-!
# Seeded shuffle

A list is put into an order that its length and a seed fix, by swapping each place with a random one not after
it. One random word serves several places: it is drawn below the product of the next few place numbers and then
taken apart by remainders.

* `shuffle_size`: the list keeps its length.
* `shuffle_of_size_le_one`: a list of at most one element stays as it is.
-/

namespace Cadence.Workload

/-- The product of `factor`, `factor + 1`, … as long as it stays below `2 ^ 32`, and how many factors it has. -/
def chunkBound (product factor count : Nat) : Nat → Nat × Nat
  | 0 => (product, count)
  | fuel + 1 =>
    if product * factor < 4294967296 then chunkBound (product * factor) (factor + 1) (count + 1) fuel
    else (product, count)

/-- A random number below `bound`, almost without bias: a second word decides whether the first one, scaled to
the bound, is carried. -/
def below (bound : Nat) (r : Random) : Nat × Random :=
  let (w, r) := r.next32
  let scaled := w * bound
  let result := scaled / 4294967296
  let low := scaled % 4294967296
  if 4294967296 - bound < low then
    let (w, r) := r.next32
    if 4294967296 ≤ low + w * bound / 4294967296 then (result + 1, r) else (result, r)
  else (result, r)

/-- Swap indices: how many have been drawn, what is left of the random number drawn last, and how many more
indices it serves. -/
structure Indices where
  random : Random
  drawn : Nat
  chunk : Nat
  left : Nat
deriving DecidableEq

namespace Indices

/-- Before the first index, which is zero and needs no random number. -/
def start (r : Random) : Indices := ⟨r, 0, 0, 1⟩

/-- With a fresh random number if the last one is used up. -/
def refill (s : Indices) : Indices :=
  if s.left = 0 then
    let (bound, count) := chunkBound (s.drawn + 1) (s.drawn + 2) 1 32
    let (chunk, random) := below bound s.random
    { s with random := random, chunk := chunk, left := count }
  else s

/-- The next index, which is at most the number of those before it, and the state after it. -/
def next (s : Indices) : Nat × Indices :=
  let s := s.refill
  if s.left = 1 then (s.chunk, { s with drawn := s.drawn + 1, left := 0 })
  else
    (s.chunk % (s.drawn + 1),
      { s with drawn := s.drawn + 1, chunk := s.chunk / (s.drawn + 1), left := s.left - 1 })

end Indices

/-- Swaps place after place, `todo` of them, each with the place that the next index names. -/
def swapAll {α : Type} (s : Indices) (xs : Array α) : Nat → Array α
  | 0 => xs
  | todo + 1 => swapAll s.next.2 (xs.swapIfInBounds s.drawn s.next.1) todo

/-- The elements in the order that the seed and their number fix. -/
def shuffle {α : Type} (xs : Array α) (seed : UInt64) : Array α :=
  if xs.size ≤ 1 then xs else swapAll (Indices.start (Random.ofSeed seed)) xs xs.size

theorem swapAll_size {α : Type} (s : Indices) (xs : Array α) (todo : Nat) :
    (swapAll s xs todo).size = xs.size := by
  induction todo generalizing s xs with
  | zero => rfl
  | succ n ih => rw [swapAll, ih, Array.size_swapIfInBounds]

theorem shuffle_size {α : Type} (xs : Array α) (seed : UInt64) : (shuffle xs seed).size = xs.size := by
  unfold shuffle
  split
  · rfl
  · exact swapAll_size _ _ _

theorem shuffle_of_size_le_one {α : Type} {xs : Array α} (h : xs.size ≤ 1) (seed : UInt64) :
    shuffle xs seed = xs := if_pos h

end Cadence.Workload

namespace Cadence

/-- Yields the given identifiers in the order that the seed and their number fix. -/
def KeyList.shuffled (keys : Array String) (seed : UInt64) : KeyList :=
  KeyList.ofArray (Workload.shuffle keys seed)

end Cadence
