import Cadence.Gateway.Store
import Cadence.Http.Message
import Cadence.Json.Value

/-!
# The gateway

A gateway that keeps uploaded contents in memory and answers for them: it adds files, gives contents back, and
tells who provides them. It counts what it is asked.

* `Gateway.handle` is one call; contents are never lost.
* `Gateway.insert_counters`: storing a content from within is no request.
-/

namespace Cadence

open Http (Response)
open Json (Value)

namespace Gateway

/-- What a body that is to be added holds: a file, nothing, or something that cannot be read. -/
inductive Submission where
  | file (name : String) (content : List UInt8)
  | nothing
  | broken (reason : String)
deriving DecidableEq

/-- What a gateway is asked. -/
inductive Call where
  | add (submission : Submission)
  | cat (id : Option String)
  | findProviders (id : Option String)
  | lookup (id : String)
deriving DecidableEq

/-- How often a gateway was asked what, and how often it did not hold the content in question. The counters have 64 bits
and begin again at zero after their top. -/
structure Counters where
  requests : Nat
  adds : Nat
  cats : Nat
  findProviders : Nat
  lookups : Nat
  notFound : Nat
deriving DecidableEq, Repr

/-- Nothing has been asked. -/
def Counters.zero : Counters := ⟨0, 0, 0, 0, 0, 0⟩

/-- The counters after a call has reached its handler. -/
def Counters.enter (c : Counters) (call : Call) : Counters :=
  let c := { c with requests := Count.wrap (c.requests + 1) }
  match call with
  | .add _ => { c with adds := Count.wrap (c.adds + 1) }
  | .cat _ => { c with cats := Count.wrap (c.cats + 1) }
  | .findProviders _ => { c with findProviders := Count.wrap (c.findProviders + 1) }
  | .lookup _ => { c with lookups := Count.wrap (c.lookups + 1) }

/-- The counters after a content was looked up. -/
def Counters.looked (c : Counters) (isFound : Bool) : Counters :=
  if isFound then c else { c with notFound := Count.wrap (c.notFound + 1) }

/-- The peer that provides every content that is held. -/
def providerId : String := "12D3KooWCidbenchTestServerProvider"

/-- The address of that peer. -/
def providerAddress : String := "/ip4/127.0.0.1/tcp/4001"

/-- A response with a text. -/
def textResponse (status : Nat) (text : String) : Response := ⟨status, text.toUTF8⟩

/-- A response with a JSON value. -/
def valueResponse (status : Nat) (v : Value) : Response := textResponse status v.compact

/-- A response that tells an error. -/
def errorResponse (status : Nat) (message : String) : Response :=
  valueResponse status (.record [("Message", .text message), ("Code", .count 0), ("Type", .text "error")])

/-- The response to a file that was added. -/
def addedResponse (name id : String) (size : Nat) : Response :=
  valueResponse 200 (.record [("Name", .text name), ("Hash", .text id), ("Size", .text (toString size))])

/-- The response that gives a content back. -/
def contentResponse (content : List UInt8) : Response := ⟨200, ⟨content.toArray⟩⟩

/-- The provider of a content. -/
def provider : Value := .record [("Addrs", .array [.text providerAddress]), ("ID", .text providerId)]

/-- An event of a search for providers. -/
def eventValue (responses : Value) (kind : Nat) : Value :=
  .record [("Extra", .text ""), ("ID", .text ""), ("Responses", responses), ("Type", .count kind)]

/-- The response to a search for providers: one event for the search, and one more for a content that is held. -/
def providersResponse (isHeld : Bool) : Response :=
  textResponse 200 ((eventValue .null 0).compact ++ "\n"
    ++ if isHeld then (eventValue (.array [provider]) 4).compact ++ "\n" else "")

/-- The response to a lookup of a content that is held. -/
def lookupResponse (id : String) : Response :=
  valueResponse 200 (.record [("MultihashResults", .array [.record [("Multihash", .text id),
    ("ProviderResults", .array [.record [("ContextID", .text ""), ("Metadata", .text "gBI="),
      ("Provider", provider)]])]])])

end Gateway

/-- A gateway: what it holds, and what it was asked. -/
structure Gateway where
  store : Gateway.Store
  counters : Gateway.Counters
deriving DecidableEq

namespace Gateway

/-- A gateway that holds nothing. -/
def empty : Gateway := ⟨.empty, .zero⟩

/-- Stores a content without being asked. -/
def insert (g : Gateway) (content : List UInt8) : Gateway := { g with store := g.store.insert content }

/-- The gateway after a content was looked up. -/
def looked (g : Gateway) (id : String) : Gateway :=
  { g with counters := g.counters.looked (g.store.contains id) }

/-- Answers a call that has been counted. -/
def answer (g : Gateway) : Call → Response × Gateway
  | .add (.file name content) =>
    (addedResponse name (contentId content) content.length, g.insert content)
  | .add .nothing => (errorResponse 400 "file argument 'path' is required", g)
  | .add (.broken reason) => (errorResponse 400 reason, g)
  | .cat none => (errorResponse 400 "argument \"ipfs-path\" is required", g)
  | .cat (some id) =>
    match g.store.get? id with
    | some content => (contentResponse content, g.looked id)
    | none => (errorResponse 500 "block was not found locally (offline)", g.looked id)
  | .findProviders none => (errorResponse 400 "argument \"key\" is required", g)
  | .findProviders (some id) => (providersResponse (g.store.contains id), g.looked id)
  | .lookup id =>
    if g.store.contains id then (lookupResponse id, g.looked id)
    else (textResponse 404 "not found", g.looked id)

/-- Counts a call and answers it. -/
def handle (g : Gateway) (call : Call) : Response × Gateway :=
  { g with counters := g.counters.enter call }.answer call

theorem insert_counters (g : Gateway) (content : List UInt8) : (g.insert content).counters = g.counters := rfl

end Gateway
end Cadence
