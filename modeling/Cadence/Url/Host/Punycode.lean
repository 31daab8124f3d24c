/-!
# Labels of other scripts

A label with characters beyond ASCII is written with ASCII characters alone: those that it has, and after a hyphen
the positions of the others in ascending order of their code points, as differences in digits of base 36 whose
thresholds adapt to what was written before.

* `Punycode.encode` and `Punycode.decode?` are the two directions.
* `Punycode.digit?_digit`: a digit that was written is read back.
-/

namespace Cadence.Url.Punycode

/-- The digit of a number below 36. -/
def digit (n : Nat) : Char := if n < 26 then Char.ofNat (97 + n) else Char.ofNat (22 + n)

/-- The value of a digit. -/
def digit? (c : Char) : Option Nat :=
  if 'a' ≤ c && c ≤ 'z' then some (c.toNat - 97)
  else if 'A' ≤ c && c ≤ 'Z' then some (c.toNat - 65)
  else if '0' ≤ c && c ≤ '9' then some (c.toNat - 22)
  else none

/-- The threshold of the digit at `place`: at least one and at most 26. -/
def threshold (place bias : Nat) : Nat := max 1 (min 26 (place - bias))

/-- Divides a difference until it is small, counting the steps. -/
def shrink (delta steps : Nat) : Nat × Nat :=
  if 455 < delta then shrink (delta / 35) (steps + 36) else (delta, steps)
termination_by delta
decreasing_by omega

/-- The bias after a difference, the first of its label or a later one, when `count` characters are placed. -/
def adapt (delta count : Nat) (isFirst : Bool) : Nat :=
  let d := if isFirst then delta / 700 else delta / 2
  let (d, steps) := shrink (d + d / count) 0
  steps + 36 * d / (d + 38)

/-- The digits of a difference, from the one at `place` on. -/
def digits (q place bias : Nat) : List Char :=
  let t := threshold place bias
  if q < t then [digit q]
  else digit (t + (q - t) % (36 - t)) :: digits ((q - t) / (36 - t)) (place + 36) bias
termination_by q
decreasing_by
  have h1 : 1 ≤ threshold place bias := Nat.le_max_left _ _
  exact Nat.lt_of_le_of_lt (Nat.div_le_self _ _) (by omega)

/-- What has been written of a label. -/
structure Writer where
  next : Nat
  delta : Nat
  bias : Nat
  handled : Nat
  output : List Char

/-- Takes note of one character while the positions of the code point `m` are written. -/
def Writer.visit (basic m : Nat) (w : Writer) (c : Nat) : Writer :=
  if c < m then { w with delta := w.delta + 1 }
  else if c = m then
    { w with
      delta := 0
      bias := adapt w.delta (w.handled + 1) (w.handled == basic)
      handled := w.handled + 1
      output := w.output ++ digits w.delta 36 w.bias }
  else w

/-- Writes the positions of the code point `m`. -/
def Writer.place (basic : Nat) (input : List Nat) (w : Writer) (m : Nat) : Writer :=
  let w := { w with delta := w.delta + (m - w.next) * (w.handled + 1), next := m }
  let w := input.foldl (Writer.visit basic m) w
  { w with delta := w.delta + 1, next := m + 1 }

/-- The ASCII form of a label, without the mark in front. -/
def encode (label : List Char) : List Char :=
  let basic := label.filter fun c => c.toNat < 128
  let points := ((label.map Char.toNat).filter (128 ≤ ·)).mergeSort.eraseDups
  let start := if basic.isEmpty then [] else basic ++ ['-']
  (points.foldl (Writer.place basic.length (label.map Char.toNat))
    ⟨128, 0, 72, basic.length, start⟩).output

/-- Reads a difference: its value and the digits after it. -/
def readDelta (bias : Nat) : Nat → Nat → Nat → List Char → Option (Nat × List Char)
  | _, _, _, [] => none
  | place, weight, value, c :: r =>
    match digit? c with
    | none => none
    | some d =>
      let t := threshold place bias
      if d < t then some (value + d * weight, r)
      else readDelta bias (place + 36) (weight * (36 - t)) (value + d * weight) r

theorem readDelta_length {bias place weight value i : Nat} {s r : List Char}
    (h : readDelta bias place weight value s = some (i, r)) : r.length < s.length := by
  induction s generalizing place weight value with
  | nil => cases h
  | cons c s ih =>
    simp only [readDelta] at h
    split at h
    · cases h
    · split at h
      · cases h; simp
      · exact Nat.lt_succ_of_lt (ih h)

/-- Places the characters of the differences that are left. -/
def placeAll (label : List Char) (next index bias : Nat) (isFirst : Bool) (s : List Char) :
    Option (List Char) :=
  match s with
  | [] => some label
  | c :: r =>
    match h : readDelta bias 36 1 0 (c :: r) with
    | none => none
    | some (delta, rest) =>
      let count := label.length + 1
      let point := next + (index + delta) / count
      let position := (index + delta) % count
      if Nat.isValidChar point then
        placeAll (label.take position ++ [Char.ofNat point] ++ label.drop position) point (position + 1)
          (adapt delta count isFirst) false rest
      else none
termination_by s.length
decreasing_by exact readDelta_length h

/-- The label of an ASCII form without the mark in front. The characters of the label stand before the last
hyphen, unless that is the first character. -/
def decode? (s : List Char) : Option (List Char) :=
  let tail := (s.reverse.takeWhile (· ≠ '-')).reverse
  let basic := (s.take (s.length - tail.length)).dropLast
  if s.all fun c => c.toNat < 128 then
    placeAll basic 128 0 72 true (if basic.isEmpty then s else tail)
  else none

theorem digit?_digit {n : Nat} (h : n < 36) : digit? (digit n) = some n := by
  have key : ∀ m ∈ List.range 36, digit? (digit m) = some m := by decide
  exact key n (List.mem_range.2 h)

end Cadence.Url.Punycode
