/-!
# Bytes of a text

Texts as bytes in UTF-8, and bytes as text, either strictly or with a replacement character for every part that
is no text.

* `Utf8.lossy_ascii`: bytes below 128 stand for themselves.
-/

namespace Cadence.Text.Utf8

/-- The bytes of a text. -/
def encode (s : List Char) : List UInt8 := s.flatMap String.utf8EncodeChar

/-- The text of bytes, if they are one. -/
def decode? (bs : List UInt8) : Option String := String.fromUTF8? ⟨bs.toArray⟩

/-- Stands for what is no text. -/
def replacement : Char := '\uFFFD'

/-- Whether a byte continues a character. -/
def continues (b : UInt8) : Bool := 0x80 ≤ b && b < 0xC0

/-- The bounds of the byte after a first byte of two or more, and how many bytes follow the first. -/
def following (b : UInt8) : Option (UInt8 × UInt8 × Nat) :=
  if 0xC2 ≤ b && b < 0xE0 then some (0x80, 0xBF, 1)
  else if b = 0xE0 then some (0xA0, 0xBF, 2)
  else if b = 0xED then some (0x80, 0x9F, 2)
  else if 0xE1 ≤ b && b < 0xF0 then some (0x80, 0xBF, 2)
  else if b = 0xF0 then some (0x90, 0xBF, 3)
  else if b = 0xF4 then some (0x80, 0x8F, 3)
  else if 0xF1 ≤ b && b < 0xF4 then some (0x80, 0xBF, 3)
  else none

/-- The leading bytes that continue a character, at most `n` of them, and the rest. -/
def continuation : Nat → List UInt8 → List UInt8 × List UInt8
  | n + 1, b :: r => if continues b then (b :: (continuation n r).1, (continuation n r).2) else ([], b :: r)
  | _, r => ([], r)

/-- The value of a character from the payload of its first byte and the bytes that continue it. -/
def value (first : Nat) (rest : List UInt8) : Nat := rest.foldl (fun n b => n * 64 + (b.toNat - 0x80)) first

/-- Reads one character from bytes that start with `b`. A part that is no character becomes the replacement. -/
def readChar (b : UInt8) (r : List UInt8) : Char × List UInt8 :=
  if b < 0x80 then (Char.ofNat b.toNat, r)
  else match following b, r with
    | some (low, high, n), second :: r' =>
      if low ≤ second && second ≤ high then
        let (more, rest) := continuation (n - 1) r'
        if more.length + 1 = n then (Char.ofNat (value (b.toNat % Nat.pow 2 (6 - n)) (second :: more)), rest)
        else (replacement, rest)
      else (replacement, r)
    | _, _ => (replacement, r)

theorem continuation_length (n : Nat) (r : List UInt8) : (continuation n r).2.length ≤ r.length := by
  induction n generalizing r with
  | zero => simp [continuation]
  | succ n ih =>
    cases r with
    | nil => simp [continuation]
    | cons b r =>
      simp only [continuation]
      split
      · exact Nat.le_trans (ih r) (by simp)
      · simp

theorem readChar_length (b : UInt8) (r : List UInt8) : (readChar b r).2.length ≤ r.length := by
  unfold readChar
  split
  · simp
  · split
    · split
      · have := continuation_length (‹Nat› - 1) ‹List UInt8›
        dsimp only
        split <;> simp <;> omega
      · simp
    · simp

/-- The text of bytes, with replacement characters. -/
def lossy : List UInt8 → List Char
  | [] => []
  | b :: r => (readChar b r).1 :: lossy (readChar b r).2
termination_by bs => bs.length
decreasing_by
  have := readChar_length b r
  simp only [List.length_cons]
  omega

theorem lossy_ascii (bs : List UInt8) (h : ∀ b ∈ bs, b < 0x80) :
    lossy bs = bs.map fun b => Char.ofNat b.toNat := by
  induction bs with
  | nil => simp [lossy]
  | cons b r ih =>
    have hb := h b List.mem_cons_self
    rw [lossy]
    simp [readChar, hb, ih fun c hc => h c (List.mem_cons_of_mem _ hc)]

end Cadence.Text.Utf8
