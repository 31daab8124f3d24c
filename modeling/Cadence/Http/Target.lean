import Cadence.Text.Utf8

/-!
# Request targets

The text of a URL is sent as it is, so it has to be a target in the strict sense: a scheme, a host and a port of
permitted characters, and a path and a query without blanks and angle brackets. What follows a number sign is not
looked at, and is not sent.

* `Target.form?` tells whether a text is an absolute target, or names a host alone.
-/

namespace Cadence.Http.Target

open Text

/-- The forms of a target: with a scheme, or a host and a port alone. -/
inductive Form where
  | absolute
  | authority
deriving DecidableEq, Repr

/-- Whether a character may stand in front of a path. -/
def isAuthorityChar (c : Char) : Bool :=
  c.isAlphanum || ['!', '$', '&', '\'', '(', ')', '*', '+', ',', '-', '.', ':', ';', '=', '@', '[', ']', '_',
    '~'].contains c

/-- Whether a character may stand in a path: also quotes, braces and all beyond ASCII. -/
def isPathChar (c : Char) : Bool :=
  let n := c.toNat
  n = 0x21 || n = 0x22 || (0x24 ≤ n && n ≤ 0x3B) || n = 0x3D || (0x40 ≤ n && n ≤ 0x5F) || 0x61 ≤ n

/-- Whether a character may stand in a query. -/
def isQueryChar (c : Char) : Bool :=
  let n := c.toNat
  n = 0x21 || (0x24 ≤ n && n ≤ 0x3B) || n = 0x3D || 0x3F ≤ n

/-- What has been seen of user, host and port. -/
structure Seen where
  colons : Nat
  opened : Bool
  closed : Bool
  percent : Bool
  endsInAt : Bool
deriving DecidableEq

/-- Nothing has been seen. -/
def Seen.start : Seen := ⟨0, false, false, false, false⟩

/-- Takes in one character of user, host and port, unless it makes them invalid. -/
def Seen.visit (s : Seen) (c : Char) : Option Seen :=
  let t := { s with endsInAt := c = '@' }
  if c = ':' then if 8 ≤ s.colons then none else some { t with colons := s.colons + 1 }
  else if c = '[' then if s.percent || s.opened then none else some { t with opened := true }
  else if c = ']' then
    if !s.opened || s.closed then none else some { t with closed := true, colons := 0, percent := false }
  else if c = '@' then some { t with colons := 0, percent := false }
  else if c = '%' then some { t with percent := true }
  else if isAuthorityChar c then some t
  else none

/-- Whether user, host and port are complete: brackets in pairs, at most one colon after them, no percent sign in
the host, and something after the user. -/
def Seen.isComplete (s : Seen) : Bool :=
  s.opened == s.closed && s.colons ≤ 1 && !s.endsInAt && !s.percent

/-- Whether characters form user, host and port. -/
def isAuthority (s : List Char) : Bool :=
  match s.foldlM Seen.visit Seen.start with
  | some seen => seen.isComplete
  | none => false

/-- Whether characters form a path and a query, which end at a number sign. -/
def isResource (s : List Char) : Bool :=
  let s := s.takeWhile (· ≠ '#')
  (s.takeWhile (· ≠ '?')).all isPathChar && ((s.dropWhile (· ≠ '?')).drop 1).all isQueryChar

/-- The rest after a start in letters of any case. -/
def afterStart? : List Char → List Char → Option (List Char)
  | [], s => some s
  | w :: ws, c :: s => if w = c.toLower then afterStart? ws s else none
  | _ :: _, [] => none

/-- What follows the scheme of the web at the start of a text. -/
def afterScheme? (s : List Char) : Option (List Char) :=
  match afterStart? "http://".toList s with
  | some r => some r
  | none => afterStart? "https://".toList s

/-- Whether a character ends user, host and port. -/
def endsAuthority (c : Char) : Bool := c = '/' || c = '?' || c = '#'

/-- The largest number of bytes of a target. -/
def longest : Nat := 65534

/-- The form of a target that begins, if with anything, with a scheme of the web. -/
def form? (s : List Char) : Option Form :=
  if longest < (Utf8.encode s).length then none
  else match afterScheme? s with
    | some r =>
      let place := r.takeWhile fun c => !endsAuthority c
      let rest := r.dropWhile fun c => !endsAuthority c
      if !place.isEmpty && isAuthority place && isResource rest then some .absolute else none
    | none => if !s.any endsAuthority && isAuthority s then some .authority else none

end Cadence.Http.Target
