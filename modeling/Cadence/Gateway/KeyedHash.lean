/-!
# A keyed hash

A hash of 64 bits over bytes in words of eight, the least significant byte first, with one round for every word
and three at the end. Both halves of the key are zero.

* `KeyedHash.of` hashes bytes; the last word holds their number modulo 256.
* `KeyedHash.words_length`: a word is read for every eight bytes, and one more.
-/

namespace Cadence.KeyedHash

/-- The state of the hash. -/
structure State where
  v0 : UInt64
  v1 : UInt64
  v2 : UInt64
  v3 : UInt64
deriving DecidableEq

/-- The state for a key of zeros. -/
def start : State := ⟨0x736f6d6570736575, 0x646f72616e646f6d, 0x6c7967656e657261, 0x7465646279746573⟩

/-- A word turned to the left. -/
def turn (x n : UInt64) : UInt64 := (x <<< n) ||| (x >>> (64 - n))

/-- One round. -/
def round (s : State) : State :=
  let v0 := s.v0 + s.v1
  let v1 := turn s.v1 13 ^^^ v0
  let v0 := turn v0 32
  let v2 := s.v2 + s.v3
  let v3 := turn s.v3 16 ^^^ v2
  let v0 := v0 + v3
  let v3 := turn v3 21 ^^^ v0
  let v2 := v2 + v1
  let v1 := turn v1 17 ^^^ v2
  let v2 := turn v2 32
  ⟨v0, v1, v2, v3⟩

/-- Takes in one word. -/
def absorb (s : State) (m : UInt64) : State :=
  let s := round { s with v3 := s.v3 ^^^ m }
  { s with v0 := s.v0 ^^^ m }

/-- The hash of a state that took in all words. -/
def finish (s : State) : UInt64 :=
  let s := round (round (round { s with v2 := s.v2 ^^^ 0xff }))
  s.v0 ^^^ s.v1 ^^^ s.v2 ^^^ s.v3

/-- A word of at most eight bytes, the least significant first. -/
def word (bs : List UInt8) : UInt64 := bs.foldr (fun b w => (w <<< 8) ||| b.toUInt64) 0

/-- The words of bytes; the last holds the bytes that are left and `count` in its highest byte. -/
def words (count : Nat) : List UInt8 → List UInt64
  | a :: b :: c :: d :: e :: f :: g :: h :: r => word [a, b, c, d, e, f, g, h] :: words count r
  | r => [word r ||| (UInt64.ofNat (count % 256) <<< 56)]

/-- The hash of bytes. -/
def of (bs : List UInt8) : UInt64 := finish ((words bs.length bs).foldl absorb start)

/-- Eight bytes of a number, the least significant first. -/
def lengthBytes (n : Nat) : List UInt8 := (List.range 8).map fun i => UInt8.ofNat (n >>> (8 * i))

theorem words_length (count : Nat) (bs : List UInt8) :
    (words count bs).length = bs.length / 8 + 1 := by
  fun_induction words count bs with
  | case1 a b c d e f g h r ih => simp only [List.length_cons, ih]; omega
  | case2 r hr =>
    simp only [List.length_cons, List.length_nil]
    have : r.length < 8 := by
      rcases r with _ | ⟨a, _ | ⟨b, _ | ⟨c, _ | ⟨d, _ | ⟨e, _ | ⟨f, _ | ⟨g, _ | ⟨h, r⟩⟩⟩⟩⟩⟩⟩⟩
      all_goals first
        | (simp; done)
        | exact absurd rfl (hr _ _ _ _ _ _ _ _ _)
    omega

end Cadence.KeyedHash
