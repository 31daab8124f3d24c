/-!
# Random bits

The generator `xoshiro256++` of 64-bit words, its state filled from a seed by SplitMix64. Equal seeds give equal
words.
-/

namespace Cadence.Workload

/-- A word with its bits rotated to the left. -/
def rotateLeft (x : UInt64) (count : UInt64) : UInt64 := (x <<< count) ||| (x >>> (64 - count))

/-- The SplitMix64 finaliser. -/
def splitMix (z : UInt64) : UInt64 :=
  let z := (z ^^^ (z >>> 30)) * 0xbf58476d1ce4e5b9
  let z := (z ^^^ (z >>> 27)) * 0x94d049bb133111eb
  z ^^^ (z >>> 31)

/-- The distance between the inputs of two finalised words. -/
def splitMixStep : UInt64 := 0x9e3779b97f4a7c15

/-- The state of the generator. -/
structure Random where
  s0 : UInt64
  s1 : UInt64
  s2 : UInt64
  s3 : UInt64
deriving DecidableEq

namespace Random

/-- The state that a seed stands for. -/
def ofSeed (seed : UInt64) : Random where
  s0 := splitMix (seed + splitMixStep)
  s1 := splitMix (seed + splitMixStep * 2)
  s2 := splitMix (seed + splitMixStep * 3)
  s3 := splitMix (seed + splitMixStep * 4)

/-- The next word of 64 bits. -/
def word (r : Random) : UInt64 := rotateLeft (r.s0 + r.s3) 23 + r.s0

/-- The state after one word. -/
def advance (r : Random) : Random :=
  let s2 := r.s2 ^^^ r.s0
  let s3 := r.s3 ^^^ r.s1
  { s0 := r.s0 ^^^ s3
    s1 := r.s1 ^^^ s2
    s2 := s2 ^^^ (r.s1 <<< 17)
    s3 := rotateLeft s3 45 }

/-- The next word of 32 bits, the upper half of one of 64, and the state after it. -/
def next32 (r : Random) : Nat × Random := ((r.word >>> 32).toNat, r.advance)

theorem next32_lt (r : Random) : r.next32.1 < 4294967296 := by
  have h : (r.word >>> 32).toNat = r.word.toNat / 4294967296 := by
    simp [UInt64.toNat_shiftRight, Nat.shiftRight_eq_div_pow]
  have hw := r.word.toNat_lt
  show (r.word >>> 32).toNat < 4294967296
  omega

end Random
end Cadence.Workload
