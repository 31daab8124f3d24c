import Cadence.Exchange.Endpoint
import Cadence.Exchange.Reply
import Cadence.Http.Client
import Cadence.Http.Multipart
import Cadence.Log
import Cadence.Operation
import Cadence.Outcome
import Cadence.Text.Quoted
import Cadence.Workload

/-!
# Executors

An executor turns an item into one exchange and judges what came of it. An upload succeeds if its reply tells an
identifier, all other operations if the status tells success, whatever the body says.

* `Executor.request?_isSome_iff`: there is a request exactly for the kind of items that the operation takes.
-/

namespace Cadence

open Http (Request Response SendError)

/-- Where the requests of an operation go. -/
inductive Executor where
  | upload (address : Url)
  | download (address : Url)
  | findProviders (address : Url) (most : Nat)
  | indexerLookup (address : Url)

/-- What an upload sends: the contents of the payload, and the number that its boundary is made of. -/
structure Upload where
  token : UInt64
  contents : List UInt8

namespace Executor

/-- The executor of an operation below a base URL. -/
def create (idna : Url.Idna) (op : Operation) (base : String) (most : Nat) : Except Endpoint.EndpointError Executor :=
  match op with
  | .upload =>
    (Endpoint.of idna base "/api/v0/add").map fun u =>
      upload ((u.withPair "cid-version" "1").withPair "pin" "true")
  | .download => (Endpoint.of idna base "/api/v0/cat").map download
  | .findProviders => (Endpoint.of idna base "/api/v0/routing/findprovs").map fun u => findProviders u most
  | .indexerLookup => (Endpoint.of idna base "/cid").map indexerLookup

/-- The operation of an executor. -/
def operation : Executor → Operation
  | upload _ => .upload
  | download _ => .download
  | findProviders _ _ => .findProviders
  | indexerLookup _ => .indexerLookup

/-- The name of the file that carries a payload. -/
def fileName (number : Nat) : String := "payload-" ++ toString number ++ ".bin"

/-- How an item is called in the log. -/
def subject : Item → String
  | .key text => text
  | .payload number _ => fileName number

/-- The address of the request for a key. -/
def address (e : Executor) (key : String) : Url :=
  match e with
  | upload u => u
  | download u => u.withPair "arg" key
  | findProviders u most =>
    ((u.withPair "arg" key).withPair "verbose" "false").withPair "num-providers" (toString most)
  | indexerLookup u => u.push key

/-- The text of the address of the request for a key. -/
def addressText (e : Executor) (key : String) : String := String.ofList (e.address key).text

/-- The request that uploads a payload. -/
def uploadRequest (u : Url) (payload : Upload) (number : Nat) (timeout : Duration) : Request :=
  let boundary := Http.Multipart.boundaryOf payload.token
  let body := Http.Multipart.encode boundary [⟨"file", fileName number, payload.contents⟩]
  ((Request.post (String.ofList u.text) ⟨body.toArray⟩).withHeader "content-type"
    (Http.Multipart.contentType boundary)).withTimeout timeout

/-- The request for an item, if it is of the kind that the operation takes. -/
def request? (e : Executor) (payload : Upload) (timeout : Duration) (item : Item) : Option Request :=
  match e, item with
  | upload u, .payload number _ => some (uploadRequest u payload number timeout)
  | upload _, .key _ => none
  | _, .payload _ _ => none
  | indexerLookup _, .key key =>
    some (((Request.get (e.addressText key)).withHeader "accept" "application/json").withTimeout timeout)
  | _, .key key => some ((Request.post (e.addressText key) ByteArray.empty).withTimeout timeout)

/-- How an item of the wrong kind is shown: with its parts named. -/
def describe : Item → String
  | .key text => "Key(" ++ Text.Quoted.quote text ++ ")"
  | .payload number size => "Payload \x7b seq: " ++ toString number ++ ", size: " ++ toString size ++ " \x7d"

/-- The note on an item of the wrong kind. -/
def misfit (e : Executor) (item : Item) : Log.Record :=
  match e with
  | upload _ => ⟨.warn, "upload expects payload items", [("item", .bare (describe item))]⟩
  | _ => ⟨.warn, e.operation.name ++ " expects CID items", []⟩

/-- What a response of success comes to: the identifier that it made and a note, or why it is rejected. -/
def accept (e : Executor) (item : Item) (r : Response) : Except String (Option String × List Log.Record) :=
  match e with
  | upload _ =>
    match Reply.rootHash r.body with
    | .ok hash => .ok (some hash, [])
    | .error f => .error f.message
  | download _ =>
    .ok (none, [⟨.debug, "content received", [("cid", .quoted (subject item)), ("bytes", .count r.body.size)]⟩])
  | findProviders _ _ =>
    .ok (none, [⟨.debug, "lookup finished",
      [("cid", .quoted (subject item)), ("providers", .count (Reply.providers r.body))]⟩])
  | indexerLookup _ => .ok (none, [])

/-- The fields that name an exchange in the log. -/
def exchangeFields (e : Executor) (item : Item) : List (String × Log.Value) :=
  [("op", .bare e.operation.name), ("subject", .quoted (subject item))]

/-- The note on a request that brought no response. -/
def failed (e : Executor) (item : Item) (error : SendError) : Log.Record :=
  ⟨.warn, "request failed",
    e.exchangeFields item ++ [("kind", .quoted error.kind), ("error", .bare error.message)]⟩

/-- The note on a response without success. -/
def unexpected (e : Executor) (item : Item) (r : Response) : Log.Record :=
  ⟨.warn, "unexpected status",
    e.exchangeFields item ++ [("status", .count r.status),
      ("body", .quoted ((r.text?.map fun t => String.ofList (Text.trim t.toList)).getD ""))]⟩

/-- The note on a response that is rejected. -/
def rejected (e : Executor) (item : Item) (reason : String) : Log.Record :=
  ⟨.warn, "rejected response", e.exchangeFields item ++ [("reason", .quoted reason)]⟩

/-- The outcome of an exchange that took `latency`, and the notes on it. -/
def judge (e : Executor) (item : Item) (latency : Duration) (reply : Except SendError Response) :
    Outcome × List Log.Record :=
  match reply with
  | .error error => (.failure latency, [e.failed item error])
  | .ok r =>
    if r.isSuccess then
      match e.accept item r with
      | .ok (produced, notes) => (⟨true, latency, produced⟩, notes)
      | .error reason => (.failure latency, [e.rejected item reason])
    else (.failure latency, [e.unexpected item r])

theorem request?_isSome_iff (e : Executor) (payload : Upload) (timeout : Duration) (item : Item) :
    (e.request? payload timeout item).isSome = true ↔ (e.operation = .upload ↔ item.key? = none) := by
  cases e <;> cases item <;> simp [request?, operation, Item.key?]

end Executor
end Cadence
