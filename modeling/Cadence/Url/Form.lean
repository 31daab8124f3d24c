import Cadence.Url.Percent

/-!
# Form encoding

Pairs of a name and a value as they stand in a query: `name=value` joined by ampersands, blanks as plus signs.

* `Form.bytes_encode`: what is written for a text is read as the bytes of the text.
* `Form.encode_clean`: what is written holds no separator.
-/

namespace Cadence.Url.Form

open Text

/-- What form encoding keeps. -/
def keeps (b : UInt8) : Bool :=
  let c := Char.ofNat b.toNat
  b < 0x80 && (c.isAlphanum || Percent.isAmong ['*', '-', '.', '_'] b)

/-- A byte of a name or a value. -/
def encodeByte (b : UInt8) : List Char := if b = 0x20 then ['+'] else Percent.encodeByte keeps b

/-- A name or a value. -/
def encode (s : List Char) : List Char := (Utf8.encode s).flatMap encodeByte

/-- One pair. -/
def pair (name value : List Char) : List Char := encode name ++ ['='] ++ encode value

/-- A query with a further pair at its end. -/
def append (query : List Char) (name value : List Char) : List Char :=
  if query.isEmpty then pair name value else query ++ ['&'] ++ pair name value

/-- The bytes of a name or a value. -/
def bytes (s : List Char) : List UInt8 := Percent.decode (s.map fun c => if c = '+' then ' ' else c)

/-- The text of a name or a value. -/
def decode (s : List Char) : List Char := Utf8.lossy (bytes s)

/-- The parts of a text between separators. -/
def splitAt (separator : Char) : List Char → List (List Char)
  | [] => [[]]
  | c :: r =>
    if c = separator then [] :: splitAt separator r
    else match splitAt separator r with
      | [] => [[c]]
      | part :: parts => (c :: part) :: parts

/-- The name and the value of a part, divided at the first equals sign. -/
def ofPart (part : List Char) : List Char × List Char :=
  (decode (part.takeWhile (· ≠ '=')), decode ((part.dropWhile (· ≠ '=')).drop 1))

/-- The pairs of a query. Parts without characters are no pairs. -/
def pairs (query : List Char) : List (List Char × List Char) :=
  ((splitAt '&' query).filter fun p => !p.isEmpty).map ofPart

theorem keeps_ascii (b : UInt8) (h : keeps b = true) : b < 0x80 ∧ b ≠ 0x25 := by
  constructor
  · simp only [keeps, Bool.and_eq_true, decide_eq_true_eq] at h
    exact h.1
  · rintro rfl
    exact absurd h (by decide)

theorem encodeByte_clean (b : UInt8) : ∀ c ∈ encodeByte b, c ≠ '&' ∧ c ≠ '=' ∧ c ≠ '#' := by
  have key : ∀ b, ((encodeByte b).all fun c => c != '&' && c != '=' && c != '#') = true :=
    Percent.of_all_bytes (by decide +kernel)
  intro c hc
  simpa [and_assoc] using List.all_eq_true.1 (key b) c hc

theorem encode_clean (s : List Char) : ∀ c ∈ encode s, c ≠ '&' ∧ c ≠ '=' ∧ c ≠ '#' := by
  intro c hc
  obtain ⟨b, _, hb⟩ := List.mem_flatMap.1 hc
  exact encodeByte_clean b c hb

theorem bytes_encodeByte (b : UInt8) (r : List Char) :
    bytes (encodeByte b ++ r) = b :: bytes r := by
  have plus : ∀ n < 256, n ≠ 32 →
      (encodeByte (UInt8.ofNat n)).map (fun c => if c = '+' then ' ' else c)
        = Percent.encodeByte keeps (UInt8.ofNat n) := by
    decide +kernel
  by_cases h : b = 0x20
  · subst h
    exact Percent.decode_ascii 0x20 (by decide) (by decide) _
  · have hn : b.toNat ≠ 32 := fun e => h (UInt8.toNat.inj e)
    have hp := plus b.toNat b.toNat_lt hn
    rw [UInt8.ofNat_toNat] at hp
    rw [bytes, List.map_append, hp, Percent.decode_encodeByte keeps_ascii, bytes]

theorem bytes_encode (s : List Char) : bytes (encode s) = Utf8.encode s := by
  unfold encode
  induction Utf8.encode s with
  | nil => rfl
  | cons b bs ih => rw [List.flatMap_cons, bytes_encodeByte, ih]

end Cadence.Url.Form
