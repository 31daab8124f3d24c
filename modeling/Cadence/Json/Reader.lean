import Cadence.Json.Value
import Cadence.Quantity

/-!
# Reading JSON

The grammar of JSON texts. Reading is lexical: numbers of any size, strings with half of a surrogate pair and any
depth of nesting are accepted, and `Value.isPlain` tells which values are free of the first two.

* `Value.parse?` reads a whole text, with blanks allowed around it.
-/

namespace Cadence.Json

/-- A blank between tokens. -/
def isBlank (c : Char) : Bool := c = ' ' || c = '\t' || c = '\n' || c = '\r'

/-- The value of four hexadecimal digits. -/
def hex4? (a b c d : Char) : Option Nat := do
  let a ← Text.Hex.value? a
  let b ← Text.Hex.value? b
  let c ← Text.Hex.value? c
  let d ← Text.Hex.value? d
  return ((a * 16 + b) * 16 + c) * 16 + d

/-- The character of an escape by one letter. -/
def unescape? (c : Char) : Option Char :=
  if c = '"' then some '"'
  else if c = '\\' then some '\\'
  else if c = '/' then some '/'
  else if c = 'b' then some (Char.ofNat 8)
  else if c = 'f' then some (Char.ofNat 12)
  else if c = 'n' then some '\n'
  else if c = 'r' then some '\r'
  else if c = 't' then some '\t'
  else none

/-- Whether a code unit is the first half of a surrogate pair. -/
def isHigh (n : Nat) : Bool := 0xD800 ≤ n && n < 0xDC00

/-- Whether a code unit is the second half of a surrogate pair. -/
def isLow (n : Nat) : Bool := 0xDC00 ≤ n && n < 0xE000

/-- The rest of a string literal, given the reversed content so far; a lone surrogate loses the content. -/
def readString (content : Option (List Char)) : List Char → Option (Option String × List Char)
  | [] => none
  | '"' :: r => some (content.map fun cs => String.ofList cs.reverse, r)
  | '\\' :: 'u' :: a :: b :: c :: d :: '\\' :: 'u' :: e :: f :: g :: h :: r =>
    match hex4? a b c d with
    | none => none
    | some high =>
      if isHigh high then
        match hex4? e f g h with
        | none => none
        | some low =>
          if isLow low then
            readString (content.map (Char.ofNat (0x10000 + (high - 0xD800) * 1024 + (low - 0xDC00)) :: ·)) r
          else readString none ('\\' :: 'u' :: e :: f :: g :: h :: r)
      else if isLow high then readString none ('\\' :: 'u' :: e :: f :: g :: h :: r)
      else readString (content.map (Char.ofNat high :: ·)) ('\\' :: 'u' :: e :: f :: g :: h :: r)
  | '\\' :: 'u' :: a :: b :: c :: d :: r =>
    match hex4? a b c d with
    | none => none
    | some n => readString (if isHigh n || isLow n then none else content.map (Char.ofNat n :: ·)) r
  | '\\' :: e :: r =>
    match unescape? e with
    | none => none
    | some c => readString (content.map (c :: ·)) r
  | c :: r => if c.toNat < 32 || c = '\\' then none else readString (content.map (c :: ·)) r
termination_by s => s.length

/-- The digits at the start of a text, of which there has to be one. -/
def readDigits (s : List Char) : Option (List Char × List Char) :=
  match s.takeWhile Char.isDigit with
  | [] => none
  | ds => some (ds, s.dropWhile Char.isDigit)

/-- The whole part of a number: no zero in front of further digits. -/
def readWhole (s : List Char) : Option (List Char × List Char) :=
  match s with
  | '0' :: r => some (['0'], r)
  | _ => readDigits s

/-- The fraction of a number, if there is one. -/
def readFraction (s : List Char) : Option (List Char × List Char) :=
  match s with
  | '.' :: r => (readDigits r).map fun (ds, r) => ('.' :: ds, r)
  | _ => some ([], s)

/-- The exponent of a number, if there is one. -/
def readExponent (s : List Char) : Option (List Char × List Char) :=
  match s with
  | e :: r =>
    if e = 'e' || e = 'E' then
      match r with
      | '+' :: r => (readDigits r).map fun (ds, r) => (e :: '+' :: ds, r)
      | '-' :: r => (readDigits r).map fun (ds, r) => (e :: '-' :: ds, r)
      | r => (readDigits r).map fun (ds, r) => (e :: ds, r)
    else some ([], s)
  | [] => some ([], [])

/-- A number literal. -/
def readNumber (s : List Char) : Option (String × List Char) := do
  let (sign, s) := match s with
    | '-' :: r => (['-'], r)
    | s => ([], s)
  let (whole, s) ← readWhole s
  let (fraction, s) ← readFraction s
  let (exponent, s) ← readExponent s
  return (String.ofList (sign ++ whole ++ fraction ++ exponent), s)

/-- What follows a word, if the text starts with it. -/
def afterWord? : List Char → List Char → Option (List Char)
  | [], s => some s
  | w :: ws, c :: s => if w = c then afterWord? ws s else none
  | _ :: _, [] => none

mutual

/-- Reads a value; `fuel` bounds the number of tokens. -/
def readValue : Nat → List Char → Option (Value × List Char)
  | 0, _ => none
  | fuel + 1, s =>
    match s.dropWhile isBlank with
    | '"' :: r => (readString (some []) r).map fun (t, r) => (.string t, r)
    | '[' :: r =>
      match r.dropWhile isBlank with
      | ']' :: r => some (.array [], r)
      | r => (readItems fuel r).map fun (vs, r) => (.array vs, r)
    | '\x7b' :: r =>
      match r.dropWhile isBlank with
      | '\x7d' :: r => some (.object [], r)
      | r => (readFields fuel r).map fun (fs, r) => (.object fs, r)
    | 't' :: r => (afterWord? ['r', 'u', 'e'] r).map fun r => (.bool true, r)
    | 'f' :: r => (afterWord? ['a', 'l', 's', 'e'] r).map fun r => (.bool false, r)
    | 'n' :: r => (afterWord? ['u', 'l', 'l'] r).map fun r => (.null, r)
    | r => (readNumber r).map fun (n, r) => (.number n, r)

/-- Reads the elements of an array up to its end. -/
def readItems : Nat → List Char → Option (List Value × List Char)
  | 0, _ => none
  | fuel + 1, s =>
    match readValue fuel s with
    | none => none
    | some (v, r) =>
      match r.dropWhile isBlank with
      | ',' :: r => (readItems fuel r).map fun (vs, r) => (v :: vs, r)
      | ']' :: r => some ([v], r)
      | _ => none

/-- Reads the fields of an object up to its end. -/
def readFields : Nat → List Char → Option (List (Option String × Value) × List Char)
  | 0, _ => none
  | fuel + 1, s =>
    match s.dropWhile isBlank with
    | '"' :: r =>
      match readString (some []) r with
      | none => none
      | some (k, r) =>
        match r.dropWhile isBlank with
        | ':' :: r =>
          match readValue fuel r with
          | none => none
          | some (v, r) =>
            match r.dropWhile isBlank with
            | ',' :: r => (readFields fuel r).map fun (fs, r) => ((k, v) :: fs, r)
            | '\x7d' :: r => some ([(k, v)], r)
            | _ => none
        | _ => none
    | _ => none

end

/-- Reads a whole text as one value. -/
def Value.parse? (s : List Char) : Option Value :=
  match readValue (2 * s.length + 2) s with
  | some (v, r) => if (r.dropWhile isBlank).isEmpty then some v else none
  | none => none

/-- The digits of a number literal before the exponent, and the exponent of the last of them. -/
def literalScale (literal : List Char) : Nat × Int :=
  let mantissa := literal.takeWhile fun c => c ≠ 'e' && c ≠ 'E'
  let exponent := (literal.dropWhile fun c => c ≠ 'e' && c ≠ 'E').drop 1
  let places := ((mantissa.dropWhile (· ≠ '.')).drop 1).length
  let size : Int := Quantity.digitsValue (exponent.filter Char.isDigit)
  (Quantity.digitsValue (mantissa.filter Char.isDigit),
    (if exponent.head? = some '-' then -size else size) - places)

/-- Whether a number literal is too large for a double. -/
def overflows (literal : String) : Bool :=
  let (digits, exponent) := literalScale literal.toList
  let lead : Int := exponent + (toString digits).length
  if digits = 0 || lead < 309 then false
  else if 310 < lead then true
  else (Nat.pow 2 1024 - Nat.pow 2 970) * Nat.pow 10 (-exponent).toNat ≤ digits * Nat.pow 10 exponent.toNat

mutual

/-- Whether every number of a value fits in a double and every string and key consists of characters. -/
def Value.isPlain : Value → Bool
  | .number literal => !overflows literal
  | .string text => text.isSome
  | .array items => plainItems items
  | .object fields => plainFields fields
  | _ => true

/-- Whether all elements are plain. -/
def plainItems : List Value → Bool
  | [] => true
  | v :: r => v.isPlain && plainItems r

/-- Whether all fields are plain. -/
def plainFields : List (Option String × Value) → Bool
  | [] => true
  | (k, v) :: r => k.isSome && v.isPlain && plainFields r

end

end Cadence.Json
