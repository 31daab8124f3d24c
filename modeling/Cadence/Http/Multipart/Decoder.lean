import Cadence.Http.Multipart

/-!
# Files out of a body

A body is split at its delimiters, and each part at its first empty line.

* `Multipart.splitFirst_eq`: what is found is split without loss, at the first place.
* `Multipart.decode?` reads a body in which every part is a file.
-/

namespace Cadence.Http.Multipart

open Text

/-- What stands before the first occurrence of a mark, and what follows it. -/
def splitFirst (mark : List UInt8) : List UInt8 → Option (List UInt8 × List UInt8)
  | [] => if mark.isEmpty then some ([], []) else none
  | b :: r =>
    if mark.isPrefixOf (b :: r) then some ([], (b :: r).drop mark.length)
    else (splitFirst mark r).map fun (before, after) => (b :: before, after)

theorem splitFirst_eq {mark s before after : List UInt8} (h : splitFirst mark s = some (before, after)) :
    s = before ++ mark ++ after := by
  induction s generalizing before with
  | nil =>
    simp only [splitFirst] at h
    split at h
    · next he =>
      cases h
      simpa using he
    · cases h
  | cons b r ih =>
    simp only [splitFirst] at h
    split at h
    · next hp =>
      cases h
      obtain ⟨t, ht⟩ := List.isPrefixOf_iff_prefix.1 hp
      rw [← ht, List.drop_left]
      simp
    · obtain ⟨⟨x, y⟩, hx, hxy⟩ := Option.map_eq_some_iff.1 h
      cases hxy
      rw [ih hx]
      simp

/-- What stands between the lines of a boundary: raw parts up to the closing delimiter. What follows that
delimiter is not looked at. -/
def rawParts (boundary : String) (s : List UInt8) : Option (List (List UInt8)) :=
  if (bytes "--").isPrefixOf s then some []
  else if lineEnd.isPrefixOf s then
    match _h : splitFirst (lineEnd ++ dashes boundary) (s.drop 2) with
    | none => none
    | some (part, rest) => (rawParts boundary rest).map (part :: ·)
  else none
termination_by s.length
decreasing_by
  have h1 := congrArg List.length (splitFirst_eq _h)
  have h2 : s.length = (s.drop 2).length + min 2 s.length := by simp; omega
  simp only [List.length_append, lineEnd, List.length_cons] at h1
  omega

/-- The head and the contents of a raw part. -/
def splitPart (raw : List UInt8) : Option (List UInt8 × List UInt8) := splitFirst (lineEnd ++ lineEnd) raw

/-- What follows a start. -/
def afterStart? (start s : List UInt8) : Option (List UInt8) :=
  if start.isPrefixOf s then some (s.drop start.length) else none

/-- The text up to the next quote, and what follows the quote. -/
def quoted? (s : List UInt8) : Option (String × List UInt8) := do
  let (text, rest) ← splitFirst (bytes "\"") s
  let text ← Utf8.decode? text
  return (text, rest)

/-- The field and the name that a head tells. -/
def ofHead? (head : List UInt8) : Option (String × String) := do
  let s ← afterStart? (bytes "Content-Disposition: form-data; name=\"") head
  let (field, s) ← quoted? s
  let s ← afterStart? (bytes "; filename=\"") s
  let (name, _) ← quoted? s
  return (field, name)

/-- The file of a raw part. -/
def ofRaw? (raw : List UInt8) : Option Part := do
  let (head, contents) ← splitPart raw
  let (field, name) ← ofHead? head
  return ⟨field, name, contents⟩

/-- The files of a body. -/
def decode? (boundary : String) (body : List UInt8) : Option (List Part) := do
  let s ← afterStart? (dashes boundary) body
  let raws ← rawParts boundary s
  raws.mapM ofRaw?

end Cadence.Http.Multipart
