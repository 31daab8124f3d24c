/-!
# Binary fractions

A finite floating-point number is `± mantissa · 2 ^ exponent` with whole numbers; its decimal text is computed
from these alone, in exact arithmetic.

* `roundHalfEven_le`, `le_roundHalfEven`: the rounded quotient is within half a unit of the exact one.
-/

namespace Cadence.Decimal

/-- A finite binary fraction. `boundary` tells that the next number below is only half a step away. -/
structure Binary where
  negative : Bool
  mantissa : Nat
  exponent : Int
  boundary : Bool
deriving DecidableEq

/-- Reads a number laid out as a sign, an exponent of `expBits` bits and a fraction of `fracBits` bits;
infinities and what is no number have none. -/
def Binary.ofBits? (expBits fracBits bits : Nat) : Option Binary :=
  let fraction := bits % Nat.pow 2 fracBits
  let biased := bits / Nat.pow 2 fracBits % Nat.pow 2 expBits
  let negative := bits / Nat.pow 2 (fracBits + expBits) % 2 == 1
  let lowest : Int := 2 - (Nat.pow 2 (expBits - 1) : Nat) - fracBits
  if biased == Nat.pow 2 expBits - 1 then none
  else if biased == 0 then some ⟨negative, fraction, lowest, false⟩
  else some ⟨negative, Nat.pow 2 fracBits + fraction, lowest + (biased - 1 : Nat), fraction == 0 && biased != 1⟩

/-- The exact value of a double. -/
def Binary.ofFloat? (x : Float) : Option Binary := Binary.ofBits? 11 52 x.toBits.toNat

/-- The exact value of a single-precision number. -/
def Binary.ofFloat32? (x : Float32) : Option Binary := Binary.ofBits? 8 23 x.toBits.toNat

/-- Numerator of the absolute value. -/
def Binary.numerator (b : Binary) : Nat := b.mantissa * Nat.pow 2 b.exponent.toNat

/-- Denominator of the absolute value. -/
def Binary.denominator (b : Binary) : Nat := Nat.pow 2 (-b.exponent).toNat

/-- The quotient rounded to the nearest whole number; a half goes to the even neighbour. -/
def roundHalfEven (num den : Nat) : Nat :=
  if 2 * (num % den) < den then num / den
  else if den < 2 * (num % den) then num / den + 1
  else num / den + num / den % 2

theorem roundHalfEven_le {num den : Nat} (h : 0 < den) :
    2 * (roundHalfEven num den * den) ≤ 2 * num + den := by
  have hd := Nat.div_add_mod num den
  have hm := Nat.mod_lt num h
  have hq : num / den * den = den * (num / den) := Nat.mul_comm _ _
  unfold roundHalfEven
  split
  · omega
  · split
    · rw [Nat.add_mul]; omega
    · rw [Nat.add_mul]
      have : num / den % 2 * den ≤ den := by
        have h2 : num / den % 2 ≤ 1 := by omega
        calc num / den % 2 * den ≤ 1 * den := Nat.mul_le_mul_right den h2
          _ = den := Nat.one_mul den
      omega

theorem le_roundHalfEven {num den : Nat} (h : 0 < den) :
    2 * num ≤ 2 * (roundHalfEven num den * den) + den := by
  have hd := Nat.div_add_mod num den
  have hm := Nat.mod_lt num h
  have hq : num / den * den = den * (num / den) := Nat.mul_comm _ _
  unfold roundHalfEven
  split
  · omega
  · split
    · rw [Nat.add_mul]; omega
    · rw [Nat.add_mul]; omega

end Cadence.Decimal
