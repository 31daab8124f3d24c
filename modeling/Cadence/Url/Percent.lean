import Cadence.Text.Hex
import Cadence.Text.Utf8

/-!
# Percent encoding

Bytes that a part of a URL keeps stand for themselves, all others are written as a percent sign and two
hexadecimal digits. What is kept depends on the part.

* `Percent.decode_encode`: decoding gives back the bytes, whatever a part keeps, if it does not keep the percent
  sign.
-/

namespace Cadence.Url.Percent

open Text

/-- A byte as a percent sign and two digits. -/
def triple (b : UInt8) : List Char := ['%', Hex.upper (b.toNat / 16), Hex.upper (b.toNat % 16)]

/-- A byte in a part that keeps some. -/
def encodeByte (keeps : UInt8 → Bool) (b : UInt8) : List Char :=
  if keeps b then [Char.ofNat b.toNat] else triple b

/-- Bytes in a part that keeps some. -/
def encode (keeps : UInt8 → Bool) (bs : List UInt8) : List Char := bs.flatMap (encodeByte keeps)

/-- A text in a part that keeps some bytes. -/
def encodeText (keeps : UInt8 → Bool) (s : List Char) : List Char := encode keeps (Utf8.encode s)

/-- The bytes of a text in which a percent sign with two digits stands for a byte. A percent sign without them
stands for itself. -/
def decode : List Char → List UInt8
  | '%' :: a :: b :: r =>
    match Hex.value? a, Hex.value? b with
    | some x, some y => UInt8.ofNat (x * 16 + y) :: decode r
    | _, _ => 0x25 :: decode (a :: b :: r)
  | c :: r => String.utf8EncodeChar c ++ decode r
  | [] => []

/-- Whether a byte is one of the given ASCII characters. -/
def isAmong (cs : List Char) (b : UInt8) : Bool := cs.contains (Char.ofNat b.toNat)

/-- Whether a byte is a printable ASCII character or a blank. -/
def isPrintable (b : UInt8) : Bool := 0x20 ≤ b && b < 0x7F

/-- What fragments keep. -/
def keptInFragment (b : UInt8) : Bool := isPrintable b && !isAmong [' ', '"', '<', '>', '`'] b

/-- What queries keep. -/
def keptInQuery (b : UInt8) : Bool := isPrintable b && !isAmong [' ', '"', '#', '<', '>', '\''] b

/-- What paths keep. -/
def keptInPath (b : UInt8) : Bool := keptInFragment b && !isAmong ['#', '?', '\x7b', '\x7d'] b

/-- What a segment keeps that is added to a path as a whole. -/
def keptInSegment (b : UInt8) : Bool := keptInPath b && !isAmong ['/', '%', '\\'] b

/-- What names and passwords in front of a host keep. -/
def keptInUserinfo (b : UInt8) : Bool :=
  keptInPath b && !isAmong ['/', ':', ';', '=', '@', '[', '\\', ']', '^', '|'] b

/-- What hosts of unknown schemes keep. -/
def keptInOpaqueHost (b : UInt8) : Bool := isPrintable b

/-- What holds of all bytes in a table holds of every byte. -/
theorem of_all_bytes {p : UInt8 → Bool} (h : ((List.range 256).all fun n => p (UInt8.ofNat n)) = true) (b : UInt8) :
    p b = true := by
  have hb := List.all_eq_true.1 h b.toNat (List.mem_range.2 b.toNat_lt)
  rwa [UInt8.ofNat_toNat] at hb

theorem decode_triple (b : UInt8) (r : List Char) : decode (triple b ++ r) = b :: decode r := by
  have h1 := Hex.value?_upper (n := b.toNat / 16) (by have := b.toNat_lt; omega)
  have h2 := Hex.value?_upper (n := b.toNat % 16) (by omega)
  simp only [triple, List.cons_append, List.nil_append, decode, h1, h2]
  congr 1
  have : b.toNat / 16 * 16 + b.toNat % 16 = b.toNat := by omega
  rw [this, UInt8.ofNat_toNat]

theorem decode_cons {c : Char} (h : c ≠ '%') (r : List Char) :
    decode (c :: r) = String.utf8EncodeChar c ++ decode r := by
  rw [decode.eq_def]
  split
  · next heq => injection heq with h1 _; exact absurd h1 h
  · next heq => injection heq with h1 h2; rw [h1, h2]
  · next heq => cases heq

theorem decode_ascii (b : UInt8) (hb : b < 0x80) (h : b ≠ 0x25) (r : List Char) :
    decode (Char.ofNat b.toNat :: r) = b :: decode r := by
  have hlt : b.toNat < 128 := hb
  have hne : b.toNat ≠ 37 := fun e => h (UInt8.toNat.inj e)
  have key : ∀ n < 128, n ≠ 37 →
      Char.ofNat n ≠ '%' ∧ String.utf8EncodeChar (Char.ofNat n) = [UInt8.ofNat n] := by decide +kernel
  obtain ⟨hc, he⟩ := key b.toNat hlt hne
  rw [decode_cons hc, he, UInt8.ofNat_toNat, List.singleton_append]

theorem decode_encodeByte {keeps : UInt8 → Bool} (h : ∀ b, keeps b = true → b < 0x80 ∧ b ≠ 0x25)
    (b : UInt8) (r : List Char) : decode (encodeByte keeps b ++ r) = b :: decode r := by
  unfold encodeByte
  split
  · next hk => exact decode_ascii b (h b hk).1 (h b hk).2 r
  · exact decode_triple b r

theorem decode_encode {keeps : UInt8 → Bool} (h : ∀ b, keeps b = true → b < 0x80 ∧ b ≠ 0x25)
    (bs : List UInt8) (r : List Char) : decode (encode keeps bs ++ r) = bs ++ decode r := by
  unfold encode
  induction bs with
  | nil => rfl
  | cons b bs ih =>
    rw [List.flatMap_cons, List.append_assoc, decode_encodeByte h, ih, List.cons_append]

end Cadence.Url.Percent
