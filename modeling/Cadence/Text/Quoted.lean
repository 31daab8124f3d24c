import Cadence.Text.Hex
import Cadence.Text.Shapeless

/-!
# Quoted texts

A text in double quotes in which every character can be seen: quotes, backslashes and line ends are written with a
backslash, and characters without a shape of their own by their number.

* `Quoted.escape_ascii`: a printable ASCII character other than the quote and the backslash stands for itself.
-/

namespace Cadence.Text.Quoted

/-- A character inside quotes. -/
def escape (c : Char) : List Char :=
  if c = '"' then ['\\', '"']
  else if c = '\\' then ['\\', '\\']
  else if c = '\n' then ['\\', 'n']
  else if c = '\r' then ['\\', 'r']
  else if c = '\t' then ['\\', 't']
  else if c.toNat = 0 then ['\\', '0']
  else if isShapeless c then ['\\', 'u', '\x7b'] ++ Hex.digits 1 c.toNat ++ ['\x7d']
  else [c]

/-- A text in quotes. -/
def quote (s : String) : String := String.ofList (['"'] ++ s.toList.flatMap escape ++ ['"'])

theorem escape_ascii {c : Char} (hq : c ≠ '"') (hb : c ≠ '\\') (hl : 32 ≤ c.toNat) (hu : c.toNat < 127) :
    escape c = [c] := by
  have hn : c ≠ '\n' := by rintro rfl; simp at hl
  have hr : c ≠ '\r' := by rintro rfl; simp at hl
  have ht : c ≠ '\t' := by rintro rfl; simp at hl
  have hz : c.toNat ≠ 0 := by omega
  have hs : ¬ isShapeless c = true := fun h => by
    have := (isShapeless_ascii_iff hu).1 h
    omega
  simp [escape, hq, hb, hn, hr, ht, hz, hs]

end Cadence.Text.Quoted
