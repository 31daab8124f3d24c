import Cadence.Text.Utf8

/-!
# Headers

The characters that names and values of headers consist of.

* `Header.fault?` tells the first fault of a list of headers; the name of a header is looked at before its value.
* `Header.fault?_eq_none_iff`: there is none exactly if all headers are valid.
-/

namespace Cadence.Http.Header

open Text

/-- Whether a character may stand in the name of a header. -/
def isNameChar (c : Char) : Bool :=
  c.isAlphanum || ['!', '#', '$', '%', '&', '\'', '*', '+', '-', '.', '^', '_', Char.ofNat 96, '|', '~'].contains c

/-- Whether a text is the name of a header. -/
def isName (s : String) : Bool := !s.isEmpty && s.utf8ByteSize < 65536 && s.toList.all isNameChar

/-- Whether a byte may stand in the value of a header: no control character but the tab. -/
def isValueByte (b : UInt8) : Bool := (32 ≤ b && b ≠ 127) || b = 9

/-- Whether a text is the value of a header. -/
def isValue (s : String) : Bool := (Utf8.encode s.toList).all isValueByte

/-- The fault of the first header that has one. -/
def fault? : List (String × String) → Option String
  | [] => none
  | (name, value) :: r =>
    if !isName name then some "invalid HTTP header name"
    else if !isValue value then some "failed to parse header value"
    else fault? r

/-- Whether there is a header of a name, in letters of any case. -/
def has (headers : List (String × String)) (name : String) : Bool :=
  headers.any fun h => h.1.toLower = name.toLower

theorem fault?_eq_none_iff (headers : List (String × String)) :
    fault? headers = none ↔ ∀ h ∈ headers, isName h.1 = true ∧ isValue h.2 = true := by
  induction headers with
  | nil => simp [fault?]
  | cons h r ih =>
    obtain ⟨name, value⟩ := h
    simp only [fault?]
    split
    · simp_all
    · split <;> simp_all

end Cadence.Http.Header
