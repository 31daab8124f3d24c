import Cadence.Gateway.Store
import Mathlib.Algebra.Ring.Nat
import Mathlib.Data.List.Basic

/-!
# Identifiers of contents

The identifier of a content ends in its length (`length_eq_of_contentId_eq`), so contents of different lengths never
share one, whatever their hashes are.
-/

namespace Cadence

namespace Text.Hex

/-- The number that hexadecimal digits stand for. -/
def number (cs : List Char) : Nat := cs.foldl (fun n c => n * 16 + (value? c).getD 0) 0

lemma number_append (cs : List Char) (c : Char) : number (cs ++ [c]) = number cs * 16 + (value? c).getD 0 := by
  simp [number]

lemma value?_digitChar {n : Nat} (h : n < 16) : value? n.digitChar = some n := by
  have key : ∀ m ∈ List.range 16, value? m.digitChar = some m := by decide
  exact key n (List.mem_range.mpr h)

lemma number_toDigits (n : Nat) : number (Nat.toDigits 16 n) = n := by
  induction n using Nat.strongRecOn with
  | ind n ih =>
    rw [Nat.toDigits_eq_if (by decide)]
    split
    · next h =>
      show number ([] ++ [n.digitChar]) = n
      rw [number_append, value?_digitChar h]
      exact Nat.zero_add n
    · next h =>
      rw [number_append, ih (n / 16) (by omega), value?_digitChar (Nat.mod_lt n (by decide))]
      exact Nat.div_add_mod' n 16

/-- Zeros in front do not count. -/
lemma number_replicate (k : Nat) (cs : List Char) : number (List.replicate k '0' ++ cs) = number cs := by
  induction k with
  | zero => rfl
  | succ k ih => exact ih

lemma number_digits (width n : Nat) : number (digits width n) = n := by
  rw [digits, number_replicate, number_toDigits]

/-- Numbers that are written with the same digits are the same. -/
lemma digits_inj {width m n : Nat} (h : digits width m = digits width n) : m = n := by
  rw [← number_digits width m, h, number_digits]

lemma length_digits {width n : Nat} (hwidth : 0 < width) (h : n < 16 ^ width) : (digits width n).length = width := by
  have hle : (Nat.toDigits 16 n).length ≤ width := (Nat.length_toDigits_le_iff (by decide) hwidth).mpr h
  rw [digits, List.length_append, List.length_replicate]
  omega

end Text.Hex

namespace Gateway
open Text

/-- Contents with one identifier have one length. -/
theorem length_eq_of_contentId_eq {a b : List UInt8} (h : contentId a = contentId b) : a.length = b.length := by
  have hhash : ∀ w : UInt64, (Hex.digits 16 w.toNat).length = 16 := by
    intro w
    have hw := w.toNat_lt
    exact Hex.length_digits (by decide) (by omega)
  unfold contentId at h
  rw [String.ofList_inj] at h
  have hfront : ("bafkfake".toList ++ Hex.digits 16 (contentHash a).toNat).length
      = ("bafkfake".toList ++ Hex.digits 16 (contentHash b).toNat).length := by
    rw [List.length_append, List.length_append, hhash, hhash]
  exact Hex.digits_inj (List.append_inj h hfront).2

lemma contentId_ne_empty (content : List UInt8) : contentId content ≠ "" := by
  intro h
  unfold contentId at h
  have hlength := congrArg (fun s => s.toList.length) h
  simp only [String.toList_ofList, List.length_append] at hlength
  have hfront : "bafkfake".toList.length = 8 := by decide
  have hempty : "".toList.length = 0 := by decide
  omega

end Gateway
end Cadence
