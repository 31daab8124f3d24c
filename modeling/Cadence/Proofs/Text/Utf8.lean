import Cadence.Text.Utf8
import Mathlib.Tactic.Lemma

/-!
# Bytes of texts

The bytes of a text are read back as the text, strictly (`decode?_encode`) and with replacement characters
(`lossy_encode`). A byte below 128 among them stands for a character of the text (`mem_of_mem_encode`).
-/

namespace Cadence.Text.Utf8

/-- The bytes of a character by its code point. -/
inductive Bytes : Nat → List UInt8 → Prop where
  | one {n} : n < 128 → Bytes n [UInt8.ofNat n]
  | two {n} : 128 ≤ n → n < 2048 → Bytes n [UInt8.ofNat (192 + n / 64), UInt8.ofNat (128 + n % 64)]
  | three {n} : 2048 ≤ n → n < 65536 →
    Bytes n [UInt8.ofNat (224 + n / 4096), UInt8.ofNat (128 + n / 64 % 64), UInt8.ofNat (128 + n % 64)]
  | four {n} : 65536 ≤ n → n < 1114112 →
    Bytes n [UInt8.ofNat (240 + n / 262144), UInt8.ofNat (128 + n / 4096 % 64), UInt8.ofNat (128 + n / 64 % 64),
      UInt8.ofNat (128 + n % 64)]

lemma bytes_utf8EncodeChar (c : Char) : Bytes c.toNat (String.utf8EncodeChar c) := by
  have hvalid : c.toNat < 1114112 := by
    have h := c.valid
    simp only [UInt32.isValidChar, Nat.isValidChar] at h
    show c.val.toNat < 1114112
    omega
  unfold String.utf8EncodeChar
  dsimp only [Char.toNat] at hvalid ⊢
  split
  · next h1 => exact .one (by omega)
  split
  · next h1 h2 =>
    have hlead : c.val.toNat / 64 % 32 + 192 = 192 + c.val.toNat / 64 := by omega
    rw [hlead, Nat.add_comm (c.val.toNat % 64)]
    exact .two (by omega) (by omega)
  split
  · next h1 h2 h3 =>
    have hlead : c.val.toNat / 4096 % 16 + 224 = 224 + c.val.toNat / 4096 := by omega
    rw [hlead, Nat.add_comm (c.val.toNat / 64 % 64), Nat.add_comm (c.val.toNat % 64)]
    exact .three (by omega) (by omega)
  · next h1 h2 h3 =>
    have hlead : c.val.toNat / 262144 % 8 + 240 = 240 + c.val.toNat / 262144 := by omega
    rw [hlead, Nat.add_comm (c.val.toNat / 4096 % 64), Nat.add_comm (c.val.toNat / 64 % 64),
      Nat.add_comm (c.val.toNat % 64)]
    exact .four (by omega) hvalid

/-- A byte below 128 stands for a character by itself. -/
lemma Bytes.eq_of_lt {n : Nat} {bs : List UInt8} (h : Bytes n bs) {b : UInt8} (hb : b ∈ bs) (hlt : b.toNat < 128) :
    b.toNat = n := by
  cases h <;> simp only [List.mem_cons, List.not_mem_nil, or_false] at hb
  case one =>
    rw [hb, UInt8.toNat_ofNat']
    omega
  case two => rcases hb with rfl | rfl <;> rw [UInt8.toNat_ofNat'] at hlt <;> omega
  case three => rcases hb with rfl | rfl | rfl <;> rw [UInt8.toNat_ofNat'] at hlt <;> omega
  case four => rcases hb with rfl | rfl | rfl | rfl <;> rw [UInt8.toNat_ofNat'] at hlt <;> omega

lemma utf8EncodeChar_of_lt {c : Char} (h : c.toNat < 128) : String.utf8EncodeChar c = [UInt8.ofNat c.toNat] := by
  have hbytes := bytes_utf8EncodeChar c
  generalize String.utf8EncodeChar c = bs at hbytes
  cases hbytes with
  | one => rfl
  | two hlow | three hlow | four hlow => omega

lemma mem_of_mem_encode {s : List Char} {b : UInt8} (h : b ∈ encode s) (hlt : b.toNat < 128) : Char.ofNat b.toNat ∈ s := by
  obtain ⟨c, hc, hb⟩ := List.mem_flatMap.mp h
  rw [(bytes_utf8EncodeChar c).eq_of_lt hb hlt, Char.ofNat_toNat]
  exact hc

lemma decode?_encode (s : String) : decode? (encode s.toList) = some s := by
  have hbytes : (⟨(encode s.toList).toArray⟩ : ByteArray) = s.toByteArray := by
    rw [← String.utf8Encode_toList]
    exact ByteArray.ext List.data_toByteArray.symm
  rw [decode?, hbytes, String.fromUTF8?, dif_pos s.isValidUTF8]
  rfl

lemma fromUTF8?_toUTF8 (text : String) : String.fromUTF8? text.toUTF8 = some text := dif_pos text.isValidUTF8

lemma eq_toUTF8_of_fromUTF8? {bytes : ByteArray} {text : String} (h : String.fromUTF8? bytes = some text) :
    bytes = text.toUTF8 := by
  unfold String.fromUTF8? at h
  split at h
  · cases h
    rfl
  · cases h

/-- The bounds of the byte after a first byte, and how many bytes follow the first, in numbers. -/
def bounds (lead : Nat) : Option (Nat × Nat × Nat) :=
  if 194 ≤ lead ∧ lead < 224 then some (128, 191, 1)
  else if lead = 224 then some (160, 191, 2)
  else if lead = 237 then some (128, 159, 2)
  else if 225 ≤ lead ∧ lead < 240 then some (128, 191, 2)
  else if lead = 240 then some (144, 191, 3)
  else if lead = 244 then some (128, 143, 3)
  else if 241 ≤ lead ∧ lead < 244 then some (128, 191, 3)
  else none

lemma following_ofNat {lead : Nat} (h : lead < 256) :
    following (UInt8.ofNat lead) = (bounds lead).map fun (low, high, n) => (UInt8.ofNat low, UInt8.ofNat high, n) := by
  have htable : ((List.range 256).all fun lead => following (UInt8.ofNat lead) =
      (bounds lead).map fun (low, high, n) => (UInt8.ofNat low, UInt8.ofNat high, n)) = true := by decide +kernel
  exact of_decide_eq_true (List.all_eq_true.mp htable lead (List.mem_range.mpr h))

lemma ofNat_le_ofNat {m n : Nat} (h : m ≤ n) (hn : n < 256) : UInt8.ofNat m ≤ UInt8.ofNat n := by
  rw [UInt8.le_iff_toNat_le, UInt8.toNat_ofNat', UInt8.toNat_ofNat']
  omega

lemma continues_ofNat {n : Nat} (h : n < 64) : continues (UInt8.ofNat (128 + n)) = true := by
  have hlow : UInt8.ofNat 128 ≤ UInt8.ofNat (128 + n) := ofNat_le_ofNat (Nat.le_add_right _ _) (by omega)
  have hhigh : UInt8.ofNat (128 + n) < UInt8.ofNat 192 := by
    rw [UInt8.lt_iff_toNat_lt, UInt8.toNat_ofNat', UInt8.toNat_ofNat']
    omega
  rw [continues, Bool.and_eq_true, decide_eq_true_eq, decide_eq_true_eq]
  exact ⟨hlow, hhigh⟩

lemma continuation_append {more : List UInt8} (h : ∀ b ∈ more, continues b = true) (rest : List UInt8) :
    continuation more.length (more ++ rest) = (more, rest) := by
  induction more with
  | nil => rfl
  | cons b more ih =>
    have hb := h b List.mem_cons_self
    have ih := ih fun c hc => h c (List.mem_cons_of_mem _ hc)
    rw [List.length_cons, List.cons_append, continuation, if_pos hb, ih]

/-- A first byte and the bytes that it announces are read as one character. -/
lemma readChar_append {lead low second high : Nat} (more : List UInt8)
    (hbounds : bounds lead = some (low, high, more.length + 1)) (hlead : 128 ≤ lead ∧ lead < 256)
    (hsecond : low ≤ second ∧ second ≤ high ∧ high < 256) (hmore : ∀ b ∈ more, continues b = true) (rest : List UInt8) :
    readChar (UInt8.ofNat lead) (UInt8.ofNat second :: (more ++ rest))
      = (Char.ofNat (value (lead % Nat.pow 2 (5 - more.length)) (UInt8.ofNat second :: more)), rest) := by
  have hnot : ¬ UInt8.ofNat lead < 0x80 := by
    rw [UInt8.lt_iff_toNat_lt, UInt8.toNat_ofNat']
    show ¬ lead % 256 < 128
    omega
  have hfollowing : following (UInt8.ofNat lead) = some (UInt8.ofNat low, UInt8.ofNat high, more.length + 1) := by
    rw [following_ofNat hlead.2, hbounds]
    rfl
  have hwithin : (UInt8.ofNat low ≤ UInt8.ofNat second && UInt8.ofNat second ≤ UInt8.ofNat high) = true := by
    rw [Bool.and_eq_true, decide_eq_true_eq, decide_eq_true_eq]
    exact ⟨ofNat_le_ofNat hsecond.1 (by omega), ofNat_le_ofNat hsecond.2.1 hsecond.2.2⟩
  have hvalue : (UInt8.ofNat lead).toNat = lead := by
    rw [UInt8.toNat_ofNat']
    exact Nat.mod_eq_of_lt hlead.2
  unfold readChar
  rw [if_neg hnot, hfollowing]
  dsimp only
  rw [if_pos hwithin, Nat.add_sub_cancel, continuation_append hmore]
  dsimp only
  rw [if_pos rfl, hvalue]
  have hwidth : 6 - (more.length + 1) = 5 - more.length := by omega
  rw [hwidth]

lemma bounds_three {n : Nat} (hlow : 2048 ≤ n) (hhigh : n < 65536) (hvalid : n < 55296 ∨ 57343 < n) :
    ∃ low high, bounds (224 + n / 4096) = some (low, high, 2) ∧
      low ≤ 128 + n / 64 % 64 ∧ 128 + n / 64 % 64 ≤ high ∧ high < 256 := by
  unfold bounds
  rw [if_neg (by omega)]
  split
  · exact ⟨160, 191, rfl, by omega, by omega, by omega⟩
  split
  · exact ⟨128, 159, rfl, by omega, by omega, by omega⟩
  · rw [if_pos (by omega)]
    exact ⟨128, 191, rfl, by omega, by omega, by omega⟩

lemma bounds_four {n : Nat} (hlow : 65536 ≤ n) (hhigh : n < 1114112) :
    ∃ low high, bounds (240 + n / 262144) = some (low, high, 3) ∧
      low ≤ 128 + n / 4096 % 64 ∧ 128 + n / 4096 % 64 ≤ high ∧ high < 256 := by
  unfold bounds
  rw [if_neg (by omega), if_neg (by omega), if_neg (by omega), if_neg (by omega)]
  split
  · exact ⟨144, 191, rfl, by omega, by omega, by omega⟩
  split
  · exact ⟨128, 143, rfl, by omega, by omega, by omega⟩
  · rw [if_pos (by omega)]
    exact ⟨128, 191, rfl, by omega, by omega, by omega⟩

lemma value_cons {first n : Nat} (h : n < 64) (rest : List UInt8) :
    value first (UInt8.ofNat (128 + n) :: rest) = value (first * 64 + n) rest := by
  have hn : (UInt8.ofNat (128 + n)).toNat - 0x80 = n := by
    rw [UInt8.toNat_ofNat']
    omega
  rw [value, List.foldl_cons, hn, value]

/-- The bytes of a character are read as the character, whatever follows them. -/
lemma readChar_bytes {c : Char} {b : UInt8} {bs : List UInt8} (h : Bytes c.toNat (b :: bs)) (rest : List UInt8) :
    readChar b (bs ++ rest) = (c, rest) := by
  have hvalid : c.toNat < 55296 ∨ 57343 < c.toNat := by
    have h := c.valid
    simp only [UInt32.isValidChar, Nat.isValidChar] at h
    show c.val.toNat < 55296 ∨ 57343 < c.val.toNat
    omega
  have hsix (n : Nat) : n % 64 < 64 := Nat.mod_lt n (by decide)
  have hcontinues (n : Nat) : continues (UInt8.ofNat (128 + n % 64)) = true := continues_ofNat (hsix n)
  generalize hn : c.toNat = n at h hvalid
  have hc : Char.ofNat n = c := by rw [← hn, Char.ofNat_toNat]
  cases h with
  | one hlt =>
    have hbyte : (UInt8.ofNat n).toNat = n := by
      rw [UInt8.toNat_ofNat']
      omega
    have hascii : UInt8.ofNat n < 0x80 := by
      rw [UInt8.lt_iff_toNat_lt, hbyte]
      exact hlt
    unfold readChar
    rw [if_pos hascii, hbyte, hc]
    rfl
  | two hlow hhigh =>
    have hbounds : bounds (192 + n / 64) = some (128, 191, 1) := if_pos (by omega)
    have hsecond : 128 ≤ 128 + n % 64 ∧ 128 + n % 64 ≤ 191 ∧ 191 < 256 := by omega
    have hread := readChar_append [] hbounds (by omega) hsecond nofun rest
    have hvalue : (192 + n / 64) % 32 * 64 + n % 64 = n := by omega
    rw [value_cons (hsix n)] at hread
    rw [← hc]
    exact hread.trans (congrArg (fun m => (Char.ofNat m, rest)) hvalue)
  | three hlow hhigh =>
    obtain ⟨low, high, hbounds, hsecond⟩ := bounds_three hlow hhigh hvalid
    have hmore : ∀ b ∈ [UInt8.ofNat (128 + n % 64)], continues b = true := List.forall_mem_singleton.mpr (hcontinues n)
    have hread := readChar_append _ hbounds (by omega) hsecond hmore rest
    have hvalue : ((224 + n / 4096) % 16 * 64 + n / 64 % 64) * 64 + n % 64 = n := by omega
    rw [value_cons (hsix _), value_cons (hsix _)] at hread
    rw [← hc]
    exact hread.trans (congrArg (fun m => (Char.ofNat m, rest)) hvalue)
  | four hlow hhigh =>
    obtain ⟨low, high, hbounds, hsecond⟩ := bounds_four hlow hhigh
    have hmore : ∀ b ∈ [UInt8.ofNat (128 + n / 64 % 64), UInt8.ofNat (128 + n % 64)], continues b = true :=
      List.forall_mem_cons.mpr ⟨hcontinues _, List.forall_mem_singleton.mpr (hcontinues n)⟩
    have hread := readChar_append _ hbounds (by omega) hsecond hmore rest
    have hvalue : (((240 + n / 262144) % 8 * 64 + n / 4096 % 64) * 64 + n / 64 % 64) * 64 + n % 64 = n := by omega
    rw [value_cons (hsix _), value_cons (hsix _), value_cons (hsix _)] at hread
    rw [← hc]
    exact hread.trans (congrArg (fun m => (Char.ofNat m, rest)) hvalue)

lemma lossy_encode (s : List Char) : lossy (encode s) = s := by
  induction s with
  | nil => rw [encode, List.flatMap_nil, lossy]
  | cons c s ih =>
    rw [encode, List.flatMap_cons, ← encode]
    cases hbytes : String.utf8EncodeChar c with
    | nil => exact absurd hbytes String.utf8EncodeChar_ne_nil
    | cons b bs =>
      have hread := readChar_bytes (hbytes ▸ bytes_utf8EncodeChar c) (encode s)
      rw [List.cons_append, lossy, hread, ih]

end Cadence.Text.Utf8
