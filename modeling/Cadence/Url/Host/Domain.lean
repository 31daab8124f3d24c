import Cadence.Url.Form

/-!
# Domain names

The ASCII form of a domain name. A plain name is its own, in small letters. All other names, those with characters beyond
ASCII and those with labels that are marked for having had some, are written by the rules for international names. These
rules are large tables, of which nothing is assumed here: they are a parameter (`Idna`).

* `Domain.isDenied` is the table of ASCII characters that no host holds.
* `Domain.toAscii?_of_isPlain`: the rules for international names have no say in a plain name.
-/

namespace Cadence.Url

/-- The rules for international names: the ASCII form of a name that is not plain, if it has one. -/
structure Idna where
  toAscii? : List Char → Option (List Char)

/-- Rules that know no international names. -/
def Idna.unaware : Idna := ⟨fun _ => none⟩

namespace Domain

/-- The ASCII characters that no host holds. -/
def isDenied (c : Char) : Bool :=
  c.toNat ≤ 32 || c.toNat = 127 ||
    ['%', '#', '/', ':', '<', '>', '?', '@', '[', '\\', ']', '^', '|'].contains c

/-- The mark of a label that had characters beyond ASCII. -/
def mark : List Char := ['x', 'n', '-', '-']

/-- Whether a label has the mark, in letters of either case. -/
def isMarked (label : List Char) : Bool := mark.isPrefixOf (label.map Char.toLower)

/-- Whether characters are ASCII alone. -/
def isAscii (s : List Char) : Bool := s.all fun c => c.toNat < 128

/-- Whether a name is plain: all of it is ASCII, and no label has the mark. -/
def isPlain (name : List Char) : Bool := isAscii name && (Form.splitAt '.' name).all fun label => !isMarked label

/-- The ASCII form of a name. -/
def toAscii? (idna : Idna) (name : List Char) : Option (List Char) :=
  if isPlain name then if name.any isDenied then none else some (name.map Char.toLower)
  else idna.toAscii? name

theorem toAscii?_of_isPlain {name : List Char} (h : isPlain name = true) (idna other : Idna) :
    toAscii? idna name = toAscii? other name := by
  rw [toAscii?, toAscii?, if_pos h, if_pos h]

end Domain
end Cadence.Url
