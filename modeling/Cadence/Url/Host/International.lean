import Cadence.Text.LowerCase
import Cadence.Url.Host.Domain
import Cadence.Url.Host.Punycode

/-!
# International names in common scripts

Rules for international names that a program can run with: capitals become small letters, compatible characters become
the ordinary ones, characters without a shape vanish, and labels of other scripts are written with a mark in front. The
tables hold the characters that are common in names, and not all there are.

* `Idna.common` puts the rules together.
-/

namespace Cadence.Url

namespace Domain

open Text

/-- Whether the code point lies in one of the ranges. -/
def within (ranges : List (Nat × Nat)) (n : Nat) : Bool := ranges.any fun r => r.1 ≤ n && n ≤ r.2

/-- Characters without a shape of their own. -/
def ignored : List (Nat × Nat) :=
  [(0xAD, 0xAD), (0x34F, 0x34F), (0x180B, 0x180D), (0x200B, 0x200B), (0x2060, 0x2060), (0x2064, 0x2064),
    (0xFE00, 0xFE0F), (0xFEFF, 0xFEFF), (0xE0100, 0xE01EF)]

/-- Characters beyond ASCII that no name holds: controls, blanks, marks of direction, private use and what is no
character. -/
def forbidden : List (Nat × Nat) :=
  [(0x80, 0xA0), (0xA8, 0xA8), (0xAF, 0xAF), (0xB4, 0xB4), (0xB8, 0xB8), (0x2000, 0x200A), (0x200C, 0x200F),
    (0x2028, 0x202F), (0x205F, 0x205F), (0x2061, 0x2063), (0x2065, 0x206F), (0x2FF0, 0x2FFF), (0x3000, 0x3000),
    (0xD800, 0xF8FF), (0xFFF0, 0xFFFF), (0xE0000, 0xE00FF), (0xE01F0, 0x10FFFF)]

/-- Marks that follow a character and begin no label. -/
def marks : List (Nat × Nat) :=
  [(0x300, 0x36F), (0x483, 0x489), (0x591, 0x5BD), (0x610, 0x61A), (0x64B, 0x65F), (0x900, 0x903),
    (0x93A, 0x93C), (0x93E, 0x94F), (0x1AB0, 0x1ACE), (0x1DC0, 0x1DFF), (0x20D0, 0x20F0), (0x302A, 0x302F),
    (0x3099, 0x309A), (0xFE20, 0xFE2F)]

/-- Characters with an ordinary form of their own. -/
def compatible : List (Nat × List Char) :=
  [(0xAA, ['a']), (0xB2, ['2']), (0xB3, ['3']), (0xB5, ['μ']), (0xB9, ['1']), (0xBA, ['o']),
    (0x130, ['i', Char.ofNat 0x307]), (0x132, ['i', 'j']), (0x133, ['i', 'j']), (0x17F, ['s']),
    (0x1E9E, ['s', 's']), (0x2024, ['.']), (0x2025, ['.', '.']), (0x2026, ['.', '.', '.']), (0x2102, ['c']),
    (0x210D, ['h']), (0x2115, ['n']), (0x2119, ['p']), (0x211A, ['q']), (0x211D, ['r']), (0x2122, ['t', 'm']),
    (0x2124, ['z']), (0x3002, ['.']), (0xFB00, ['f', 'f']), (0xFB01, ['f', 'i']), (0xFB02, ['f', 'l']),
    (0xFB03, ['f', 'f', 'i']), (0xFB04, ['f', 'f', 'l']), (0xFF61, ['.'])]

/-- What a character of a name becomes. -/
def fold (c : Char) : List Char :=
  if within ignored c.toNat then []
  else if 0xFF01 ≤ c.toNat && c.toNat ≤ 0xFF5E then [(Char.ofNat (c.toNat - 0xFEE0)).toLower]
  else match compatible.find? fun p => p.1 = c.toNat with
    | some p => p.2
    | none => [LowerCase.toLower c]

/-- Whether a label of folded characters may stand in a name. -/
def isLabel (label : List Char) : Bool :=
  (label.all fun c => !isDenied c && !within forbidden c.toNat)
    && match label with
      | c :: _ => !within marks c.toNat
      | [] => true

/-- The ASCII form of a label of folded characters. A label with a mark has to lead to a label that needs it. -/
def labelToAscii? (label : List Char) : Option (List Char) :=
  if mark.isPrefixOf label then
    match Punycode.decode? (label.drop 4) with
    | none => none
    | some l => if isLabel label && isLabel l && !isAscii l && l.flatMap fold = l then some label else none
  else if !isLabel label then none
  else if isAscii label then some label
  else some (mark ++ Punycode.encode label)

/-- Labels with dots between them. -/
def joinLabels : List (List Char) → List Char
  | [] => []
  | [l] => l
  | l :: m :: r => l ++ ['.'] ++ joinLabels (m :: r)

end Domain

open Domain in
/-- The rules for names in common scripts. -/
def Idna.common : Idna where
  toAscii? name := ((Form.splitAt '.' (name.flatMap fold)).mapM labelToAscii?).map joinLabels

end Cadence.Url
