import Cadence.Text.Hex

/-!
# JSON values and their compact text

Values keep their numbers as the literals they were written with and their fields in order. A string literal may
name half of a surrogate pair, which is no character; such a string is kept without its content.

* `Value.render` writes a value without blanks; `quote` escapes quotes, backslashes and control characters only.
-/

namespace Cadence.Json

/-- A JSON value. A string or a key without content is a literal with a lone surrogate. -/
inductive Value where
  | null
  | bool (b : Bool)
  | number (literal : String)
  | string (text : Option String)
  | array (items : List Value)
  | object (fields : List (Option String × Value))

/-- A character inside a string literal. -/
def escapeChar (c : Char) : List Char :=
  if c = '"' then ['\\', '"']
  else if c = '\\' then ['\\', '\\']
  else if c = '\n' then ['\\', 'n']
  else if c = '\r' then ['\\', 'r']
  else if c = '\t' then ['\\', 't']
  else if c.toNat = 8 then ['\\', 'b']
  else if c.toNat = 12 then ['\\', 'f']
  else if c.toNat < 32 then ['\\', 'u', '0', '0', Text.Hex.lower (c.toNat / 16), Text.Hex.lower (c.toNat % 16)]
  else [c]

/-- A string literal. -/
def quote (s : String) : List Char := ['"'] ++ s.toList.flatMap escapeChar ++ ['"']

/-- A string that names half of a surrogate pair cannot be written; the replacement character stands for it. -/
def quote? (s : Option String) : List Char := quote (s.getD "\uFFFD")

mutual

/-- The compact text of a value. -/
def Value.render : Value → List Char
  | .null => ['n', 'u', 'l', 'l']
  | .bool true => ['t', 'r', 'u', 'e']
  | .bool false => ['f', 'a', 'l', 's', 'e']
  | .number literal => literal.toList
  | .string text => quote? text
  | .array items => ['['] ++ renderItems items ++ [']']
  | .object fields => ['\x7b'] ++ renderFields fields ++ ['\x7d']

/-- Elements with commas between them. -/
def renderItems : List Value → List Char
  | [] => []
  | [v] => v.render
  | v :: w :: r => v.render ++ [','] ++ renderItems (w :: r)

/-- Fields with commas between them. -/
def renderFields : List (Option String × Value) → List Char
  | [] => []
  | [(k, v)] => quote? k ++ [':'] ++ v.render
  | (k, v) :: f :: r => quote? k ++ [':'] ++ v.render ++ [','] ++ renderFields (f :: r)

end

/-- The compact text of a value as a string. -/
def Value.compact (v : Value) : String := String.ofList v.render

/-- A string with content. -/
def Value.text (s : String) : Value := .string (some s)

/-- A whole number. -/
def Value.count (n : Nat) : Value := .number (toString n)

/-- An object with ordinary keys. -/
def Value.record (fields : List (String × Value)) : Value := .object (fields.map fun (k, v) => (some k, v))

mutual

/-- How many arrays and objects are nested at most, the value itself included. -/
def Value.depth : Value → Nat
  | .array items => depthItems items + 1
  | .object fields => depthFields fields + 1
  | _ => 0

/-- The largest depth of the elements. -/
def depthItems : List Value → Nat
  | [] => 0
  | v :: r => max v.depth (depthItems r)

/-- The largest depth of the fields. -/
def depthFields : List (Option String × Value) → Nat
  | [] => 0
  | (_, v) :: r => max v.depth (depthFields r)

end

end Cadence.Json
