import Cadence.Text.Hex
import Cadence.Text.Utf8

/-!
# Files in one body

Several files in one body, each after a line that holds the boundary, with a head that tells its field and its
name. Nothing inside a file is escaped, so the boundary has to be one that no file holds.

* `Multipart.encode_cons`: the files stand one after the other.
-/

namespace Cadence.Http.Multipart

open Text

/-- A file in a body. -/
structure Part where
  field : String
  fileName : String
  contents : List UInt8
deriving DecidableEq

/-- The bytes of a text. -/
def bytes (s : String) : List UInt8 := Utf8.encode s.toList

/-- The end of a line. -/
def lineEnd : List UInt8 := [13, 10]

/-- Two hyphens and the boundary. -/
def dashes (boundary : String) : List UInt8 := bytes "--" ++ bytes boundary

/-- The lines in front of a file. -/
def head (p : Part) : List UInt8 :=
  bytes "Content-Disposition: form-data; name=\"" ++ bytes p.field ++ bytes "\"; filename=\""
    ++ bytes p.fileName ++ bytes "\"" ++ lineEnd ++ bytes "Content-Type: application/octet-stream"

/-- A file with its boundary and its head. -/
def framed (boundary : String) (p : Part) : List UInt8 :=
  dashes boundary ++ lineEnd ++ head p ++ lineEnd ++ lineEnd ++ p.contents ++ lineEnd

/-- The end of a body. -/
def closing (boundary : String) : List UInt8 := dashes boundary ++ bytes "--" ++ lineEnd

/-- A body that holds files in order. -/
def encode (boundary : String) (parts : List Part) : List UInt8 :=
  parts.flatMap (framed boundary) ++ closing boundary

/-- The type of a body, for its header. -/
def contentType (boundary : String) : String := "multipart/form-data; boundary=" ++ boundary

/-- A boundary from a number of 64 bits. -/
def boundaryOf (token : UInt64) : String :=
  "cidbench-" ++ String.ofList (Hex.digits 16 token.toNat)

theorem encode_nil (boundary : String) : encode boundary [] = closing boundary := rfl

theorem encode_cons (boundary : String) (p : Part) (ps : List Part) :
    encode boundary (p :: ps) = framed boundary p ++ encode boundary ps := by
  simp [encode]

end Cadence.Http.Multipart
