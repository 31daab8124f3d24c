import Cadence.Count
import Cadence.Duration

/-!
# Latency histogram

Latencies are counted in whole microseconds with eleven significant bits: a value falls in the level of all
values that agree with it in their first eleven bits. Values from `2 ^ 32` on count as one hour.

* `levelLow_le`, `le_levelTop`: a value lies in its level.
* `Histogram.total_record`: recording a value adds one to the total.
-/

namespace Cadence.Latency

/-- One hour in microseconds, which stands for every value that is too large to be counted exactly. -/
def hour : Nat := 3600000000

/-- Values below this one are counted, larger ones stand for an hour. -/
def valueLimit : Nat := 4294967296

/-- The value that a latency is counted as: whole microseconds, at least one. -/
def valueOf (latency : Duration) : Nat :=
  let us := max 1 (Count.cap latency.micros)
  if us < valueLimit then us else hour

/-- How many low bits of a value are not told apart. -/
def levelShift (value : Nat) : Nat := value.log2 + 1 - 11

/-- How many values the level of `value` holds. -/
def levelWidth (value : Nat) : Nat := Nat.pow 2 (levelShift value)

/-- The smallest value of the level of `value`. -/
def levelLow (value : Nat) : Nat := value / levelWidth value * levelWidth value

/-- The largest value of the level of `value`. -/
def levelTop (value : Nat) : Nat := levelLow value + levelWidth value - 1

theorem levelWidth_pos (value : Nat) : 0 < levelWidth value := Nat.two_pow_pos _

theorem levelLow_le (value : Nat) : levelLow value ≤ value := Nat.div_mul_le_self _ _

theorem le_levelTop (value : Nat) : value ≤ levelTop value := by
  have hp := levelWidth_pos value
  have hd := Nat.div_add_mod value (levelWidth value)
  have hm := Nat.mod_lt value hp
  have hc : levelWidth value * (value / levelWidth value) = levelLow value := Nat.mul_comm _ _
  unfold levelTop
  omega

/-- The counted levels, ascending: the smallest value of each, and how many values fell in it. -/
structure Histogram where
  levels : List (Nat × Nat)
deriving DecidableEq

/-- One more value in the level that starts at `low`. -/
def bump (low : Nat) : List (Nat × Nat) → List (Nat × Nat)
  | [] => [(low, 1)]
  | (l, n) :: r =>
    if low = l then (l, n + 1) :: r
    else if low < l then (low, 1) :: (l, n) :: r
    else (l, n) :: bump low r

namespace Histogram

/-- No values yet. -/
def empty : Histogram := ⟨[]⟩

/-- One more value. -/
def record (h : Histogram) (value : Nat) : Histogram := ⟨bump (levelLow value) h.levels⟩

/-- How many values levels hold. -/
def count : List (Nat × Nat) → Nat
  | [] => 0
  | (_, n) :: r => n + count r

/-- How many values were recorded. -/
def total (h : Histogram) : Nat := count h.levels

/-- Whether nothing was recorded. -/
def isEmpty (h : Histogram) : Bool := h.levels.isEmpty

/-- The first level at which the counts add up to at least `rank`, given how many are still missing. -/
def levelAt (rank : Nat) : List (Nat × Nat) → Option Nat
  | [] => none
  | (l, n) :: r => if rank ≤ n then some l else levelAt (rank - n) r

/-- The largest value of the level that holds the value of the given rank. -/
def atRank (h : Histogram) (rank : Nat) : Nat :=
  match levelAt rank h.levels with
  | some low => levelTop low
  | none => 0

/-- The rank of a quantile: a share of the total, rounded up, at least one. -/
def rank (q : Float) (total : Nat) : Nat :=
  max 1 (Count.ceil ((if 1.0 < q then 1.0 else q) * Count.toFloat total))

/-- The value at a quantile; the quantile zero shows the smallest value of the first level. -/
def quantile (h : Histogram) (q : Float) : Nat :=
  if q == 0.0 then (levelAt (rank q h.total) h.levels).getD 0 else h.atRank (rank q h.total)

/-- The largest value of the last level. -/
def maximum (h : Histogram) : Nat :=
  match h.levels.getLast? with
  | some (low, _) => levelTop low
  | none => 0

theorem count_bump (low : Nat) (levels : List (Nat × Nat)) : count (bump low levels) = count levels + 1 := by
  fun_induction bump low levels with
  | case1 => rfl
  | case2 => simp only [count]; omega
  | case3 => simp only [count]; omega
  | case4 l n r _ _ ih => simp only [count, ih]; omega

theorem total_record (h : Histogram) (value : Nat) : (h.record value).total = h.total + 1 :=
  count_bump _ _

end Histogram
end Cadence.Latency
