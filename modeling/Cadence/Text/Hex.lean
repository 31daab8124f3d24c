/-!
# Hexadecimal digits

* `Hex.value?_lower` and `Hex.value?_upper`: the value of a digit that was written is read back.
-/

namespace Cadence.Text.Hex

/-- The value of a hexadecimal digit. -/
def value? (c : Char) : Option Nat :=
  if c.isDigit then some (c.toNat - 48)
  else if 'a' ≤ c && c ≤ 'f' then some (c.toNat - 87)
  else if 'A' ≤ c && c ≤ 'F' then some (c.toNat - 55)
  else none

/-- The digit of a number below sixteen, a letter in lower case. -/
def lower (n : Nat) : Char := if n < 10 then Char.ofNat (48 + n) else Char.ofNat (87 + n)

/-- The digit of a number below sixteen, a letter in upper case. -/
def upper (n : Nat) : Char := if n < 10 then Char.ofNat (48 + n) else Char.ofNat (55 + n)

/-- The digits of a number in lower case, the most significant first, at least `width` of them. -/
def digits (width n : Nat) : List Char :=
  let ds := (Nat.toDigits 16 n)
  List.replicate (width - ds.length) '0' ++ ds

theorem value?_lower {n : Nat} (h : n < 16) : value? (lower n) = some n := by
  have key : ∀ m ∈ List.range 16, value? (lower m) = some m := by decide
  exact key n (List.mem_range.2 h)

theorem value?_upper {n : Nat} (h : n < 16) : value? (upper n) = some n := by
  have key : ∀ m ∈ List.range 16, value? (upper m) = some m := by decide
  exact key n (List.mem_range.2 h)

end Cadence.Text.Hex
