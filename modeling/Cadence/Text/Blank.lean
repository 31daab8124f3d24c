/-!
# Blank characters

The characters with the Unicode property `White_Space`, and trimming by them.

* `isBlank_of_isWhitespace`: every blank of the core library is one.
* `trim_nil_iff`: a text trims to nothing exactly if it is blank throughout.
-/

namespace Cadence.Text

/-- The 25 characters with the property `White_Space`, as closed ranges of code points. -/
def blankRanges : List (Nat × Nat) :=
  [(0x9, 0xD), (0x20, 0x20), (0x85, 0x85), (0xA0, 0xA0), (0x1680, 0x1680), (0x2000, 0x200A),
    (0x2028, 0x2029), (0x202F, 0x202F), (0x205F, 0x205F), (0x3000, 0x3000)]

/-- Whether a character has the property `White_Space`. -/
def isBlank (c : Char) : Bool :=
  blankRanges.any fun r => r.1 ≤ c.toNat && c.toNat ≤ r.2

/-- The text without its leading blanks. -/
def trimStart (s : List Char) : List Char := s.dropWhile isBlank

/-- The text without its trailing blanks. -/
def trimEnd (s : List Char) : List Char := (s.reverse.dropWhile isBlank).reverse

/-- The text without the blanks at both ends. -/
def trim (s : List Char) : List Char := trimEnd (trimStart s)

theorem isBlank_of_isWhitespace {c : Char} (h : c.isWhitespace = true) : isBlank c = true := by
  simp only [Char.isWhitespace, Bool.or_eq_true, decide_eq_true_eq] at h
  rcases h with ((rfl | rfl) | rfl) | rfl <;> decide

theorem dropWhile_nil_iff {α : Type} (p : α → Bool) (s : List α) :
    s.dropWhile p = [] ↔ ∀ c ∈ s, p c = true := by
  induction s with
  | nil => simp
  | cons c r ih => by_cases h : p c = true <;> simp [h, ih]

theorem trimEnd_nil_iff (s : List Char) : trimEnd s = [] ↔ ∀ c ∈ s, isBlank c = true := by
  unfold trimEnd
  rw [List.reverse_eq_nil_iff, dropWhile_nil_iff]
  simp

theorem trim_nil_iff (s : List Char) : trim s = [] ↔ ∀ c ∈ s, isBlank c = true := by
  unfold trim trimStart
  rw [trimEnd_nil_iff]
  constructor
  · intro h
    rw [← dropWhile_nil_iff]
    cases hs : s.dropWhile isBlank with
    | nil => rfl
    | cons c r =>
      have hc : isBlank c = true := h c (by rw [hs]; exact List.mem_cons_self)
      have hn : ¬ isBlank c = true := by
        have := List.head_dropWhile_not isBlank (l := s) (by rw [hs]; simp)
        simpa [hs] using this
      exact absurd hc hn
  · intro h c hc
    rw [(dropWhile_nil_iff isBlank s).mpr h] at hc
    exact absurd hc (List.not_mem_nil)

end Cadence.Text
