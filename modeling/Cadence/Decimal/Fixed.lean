import Cadence.Decimal.Binary

/-!
# Fixed places

Numbers written with a fixed count of decimal places: the exact value is rounded to the nearest such number, a
half goes to the even neighbour, and the sign of a negative zero is kept.
-/

namespace Cadence.Decimal

/-- A whole number in base ten with zeros in front up to `width` digits. -/
def padded (width n : Nat) : String :=
  let digits := toString n
  String.ofList (List.replicate (width - digits.length) '0') ++ digits

/-- A whole number in base ten with blanks in front up to `width` characters. -/
def aligned (width : Nat) (s : String) : String :=
  String.ofList (List.replicate (width - s.length) ' ') ++ s

/-- `n` units of the last of `places` decimal places. -/
def pointed (places n : Nat) : String :=
  if places == 0 then toString n
  else toString (n / Nat.pow 10 places) ++ "." ++ padded places (n % Nat.pow 10 places)

/-- A binary fraction with `places` decimal places. -/
def Binary.fixed (places : Nat) (b : Binary) : String :=
  (if b.negative then "-" else "")
    ++ pointed places (roundHalfEven (b.numerator * Nat.pow 10 places) b.denominator)

/-- A double with `places` decimal places; an infinity or what is no number is named. -/
def fixed (places : Nat) (x : Float) : String :=
  match Binary.ofFloat? x with
  | some b => b.fixed places
  | none => if x.isNaN then "NaN" else if x < 0.0 then "-inf" else "inf"

/-- A single-precision number with `places` decimal places. -/
def fixed32 (places : Nat) (x : Float32) : String :=
  match Binary.ofFloat32? x with
  | some b => b.fixed places
  | none => if x.isNaN then "NaN" else if x < 0.0 then "-inf" else "inf"

end Cadence.Decimal
