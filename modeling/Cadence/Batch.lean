import Cadence.Count
import Cadence.Workload

/-!
# Batches

At every tick a batch is drawn: as many items as the rate allows, or as many as the source says are left. A
source that yields fewer has broken its promise, and the whole batch is lost.

* `drawInto_size`: a batch that could be drawn has exactly the wanted number of items.
-/

namespace Cadence.Batch

variable {σ : Type} [Source σ]

/-- What the source says is left, with the largest count for no end. -/
def claimed (s : σ) : Nat :=
  match Source.remaining s with
  | .finite n => n
  | .unbounded => Count.top

/-- Draws `want` more items after those in `batch`. -/
def drawInto (batch : Array Item) (s : σ) : Nat → Except Fault (Array Item) × σ
  | 0 => (.ok batch, s)
  | want + 1 =>
    match Source.next s with
    | (some item, s) => drawInto (batch.push item) s want
    | (none, s) => (.error (.sourceContract (claimed s)), s)

/-- How many items the next batch should have. -/
def wanted (rate : Nat) (s : σ) : Nat :=
  match Source.remaining s with
  | .finite n => min n rate
  | .unbounded => rate

/-- Draws the next batch. -/
def draw (rate : Nat) (s : σ) : Except Fault (Array Item) × σ := drawInto #[] s (wanted rate s)

theorem drawInto_size {batch items : Array Item} {s t : σ} {want : Nat}
    (h : drawInto batch s want = (.ok items, t)) : items.size = batch.size + want := by
  induction want generalizing batch s with
  | zero => cases h; rfl
  | succ n ih =>
    unfold drawInto at h
    split at h
    · have := ih h
      rw [Array.size_push] at this
      omega
    · cases h

end Cadence.Batch
