import Cadence.Decimal.Binary

/-!
# Shortest digits

The fewest decimal digits that read back as the same floating-point number, and among those the nearest to it.
A number reads back if it lies in the interval of reals that round to the given one; the ends belong to the
interval exactly if the mantissa is even.
-/

namespace Cadence.Decimal

/-- `digits · 10 ^ exponent`. -/
structure Scientific where
  digits : Nat
  exponent : Int
deriving DecidableEq

/-- The interval of reals that round to a number, with its middle, all over one denominator. -/
structure Interval where
  low : Nat
  middle : Nat
  high : Nat
  denominator : Nat
  closed : Bool

/-- The reals that round to a binary fraction. -/
def Binary.interval (b : Binary) : Interval where
  low := (4 * b.mantissa - (if b.boundary then 1 else 2)) * Nat.pow 2 b.exponent.toNat
  middle := 4 * b.mantissa * Nat.pow 2 b.exponent.toNat
  high := (4 * b.mantissa + 2) * Nat.pow 2 b.exponent.toNat
  denominator := 4 * Nat.pow 2 (-b.exponent).toNat
  closed := b.mantissa % 2 == 0

/-- Whether `num / den` lies in the interval. -/
def Interval.contains (i : Interval) (num den : Nat) : Bool :=
  let x := num * i.denominator
  if i.closed then i.low * den ≤ x && x ≤ i.high * den else i.low * den < x && x < i.high * den

/-- How often ten can be multiplied in before `num / den` reaches one, counted up to `fuel`. -/
def leadingZeros (num den : Nat) : Nat → Nat
  | 0 => 0
  | fuel + 1 => if den ≤ num then 0 else leadingZeros (num * 10) den fuel + 1

/-- The exponent of the first digit of `num / den`. -/
def leadingExponent (num den : Nat) : Int :=
  if den ≤ num then ((toString (num / den)).length - 1 : Nat)
  else -(leadingZeros num den 400 : Int)

/-- The neighbours of the middle on the grid of multiples of `10 ^ grid`, the nearer one first, kept if they
read back. -/
def Interval.onGrid (i : Interval) (grid : Int) : List Scientific :=
  let num := i.middle * Nat.pow 10 (-grid).toNat
  let den := i.denominator * Nat.pow 10 grid.toNat
  let down := num / den
  let near := roundHalfEven num den
  let far := if near == down then down + 1 else down
  ([near, far].filter fun d => i.contains (d * Nat.pow 10 grid.toNat) (Nat.pow 10 (-grid).toNat)).map (⟨·, grid⟩)

/-- The first hit on the grids of `count`, `count + 1`, … digits. -/
def Interval.search (i : Interval) (lead : Int) (count : Nat) : Nat → Scientific
  | 0 => ⟨i.middle / i.denominator, 0⟩
  | fuel + 1 =>
    match i.onGrid (lead + 1 - count) with
    | s :: _ => s
    | [] => i.search lead (count + 1) fuel

/-- The same number without trailing zeros among its digits. -/
def Scientific.trimmed (s : Scientific) : Nat → Scientific
  | 0 => s
  | fuel + 1 =>
    if s.digits != 0 && s.digits % 10 == 0 then
      Scientific.trimmed ⟨s.digits / 10, s.exponent + 1⟩ fuel
    else s

/-- The shortest decimal that reads back as the absolute value. -/
def Binary.shortest (b : Binary) : Scientific :=
  if b.mantissa == 0 then ⟨0, 0⟩
  else (b.interval.search (leadingExponent b.numerator b.denominator) 1 20).trimmed 25

/-- How a number with its shortest digits is laid out: the exponents of the first digit that are written
positionally, and whether a positive exponent carries a plus. -/
structure Layout where
  lowest : Int
  highest : Int
  plus : Bool

/-- Positional notation of `digits · 10 ^ exponent`, with at least one decimal place. -/
def Scientific.positional (s : Scientific) : String :=
  if 0 ≤ s.exponent then toString (s.digits * Nat.pow 10 s.exponent.toNat) ++ ".0"
  else
    let places := (-s.exponent).toNat
    let fraction := toString (s.digits % Nat.pow 10 places)
    toString (s.digits / Nat.pow 10 places) ++ "."
      ++ String.ofList (List.replicate (places - fraction.length) '0') ++ fraction

/-- Scientific notation, one digit before the point and no point after a single digit. -/
def Scientific.exponential (plus : Bool) (s : Scientific) : String :=
  let digits := toString s.digits
  let lead := s.exponent + (digits.length - 1 : Nat)
  let mantissa := match digits.toList with
    | [] => "0"
    | [d] => d.toString
    | d :: r => d.toString ++ "." ++ String.ofList r
  mantissa ++ "e" ++ (if 0 ≤ lead && plus then "+" else "") ++ toString lead

/-- The number in the given layout. -/
def Scientific.render (l : Layout) (s : Scientific) : String :=
  let lead := s.exponent + ((toString s.digits).length - 1 : Nat)
  if s.digits == 0 then "0.0"
  else if l.lowest ≤ lead && lead ≤ l.highest then s.positional
  else s.exponential l.plus

/-- The shortest text of a finite double, if it is one. -/
def shortest? (l : Layout) (x : Float) : Option String :=
  (Binary.ofFloat? x).map fun b => (if b.negative then "-" else "") ++ b.shortest.render l

end Cadence.Decimal
