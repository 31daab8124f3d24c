import Cadence.Gateway.Handler
import Cadence.Http.Client
import Cadence.Http.Multipart.Decoder
import Cadence.Text.Blank
import Cadence.Text.Lines

/-!
# Routes of the gateway

Which call a message that reaches the gateway is, or what is answered to one that is none: no such place, the wrong
method, a query or a body that cannot be read.

* `Gateway.serve` answers a message; only calls change the gateway.
-/

namespace Cadence.Gateway

open Http (Response Sent)
open Text

/-- The argument of a query, if there is one; more than one is an error. -/
def queryArgument? (query : Option (List Char)) : Except Response (Option String) :=
  match (Url.Form.pairs (query.getD [])).filter fun p => p.1 = ['a', 'r', 'g'] with
  | [] => .ok none
  | [p] => .ok (some (String.ofList p.2))
  | _ => .error (textResponse 400 "Failed to deserialize query string: duplicate field `arg`")

/-- The boundary that a content type names. -/
def boundary? (contentType : String) : Option String :=
  let s := contentType.toList
  if (s.takeWhile (· ≠ ';')).map Char.toLower ≠ "multipart/form-data".toList then none
  else
    let parameters := ((Url.Form.splitAt ';' s).drop 1).map Text.trim
    (parameters.find? fun p => "boundary=".toList.isPrefixOf p).bind fun p =>
      let value := p.drop 9
      if value.isEmpty then none
      else if value.head? = some '"' then some (String.ofList ((value.drop 1).takeWhile (· ≠ '"')))
      else some (String.ofList value)

/-- What is told about a body that cannot be read. -/
def unreadable : Submission := .broken "Error parsing `multipart/form-data` request"

/-- The name of the file that the lines in front of a part tell. -/
def fileName? (head : List UInt8) : Option String := do
  let (_, rest) ← Http.Multipart.splitFirst (Http.Multipart.bytes "filename=\"") head
  let (name, _) ← Http.Multipart.quoted? rest
  return name

/-- Whether lines in front of a part are headers. -/
def areHeaders (head : List UInt8) : Bool :=
  match Utf8.decode? head with
  | some text => ((lines text.toList).all fun l => l.contains ':' && !(l.takeWhile (· ≠ ':')).contains ' ')
  | none => false

/-- The file of a part. -/
def ofPart (raw : List UInt8) : Submission :=
  if Http.Multipart.lineEnd.isPrefixOf raw then .file "file" (raw.drop 2)
  else match Http.Multipart.splitPart raw with
    | none => unreadable
    | some (head, content) =>
      if areHeaders head then .file ((fileName? head).getD "file") content else unreadable

/-- What a body holds. -/
def submission (boundary : String) (body : List UInt8) : Submission :=
  match Http.Multipart.splitFirst (Http.Multipart.dashes boundary) body with
  | none => unreadable
  | some (_, rest) =>
    if (Http.Multipart.bytes "--").isPrefixOf rest then .nothing
    else if Http.Multipart.lineEnd.isPrefixOf rest then
      match Http.Multipart.splitFirst (Http.Multipart.lineEnd ++ Http.Multipart.dashes boundary) (rest.drop 2) with
      | some (raw, _) => ofPart raw
      | none => unreadable
    else unreadable

/-- The call that a body to be added makes. -/
def addCall (m : Sent) : Except Response Call :=
  match (m.headers.find? fun h => h.1.toLower = "content-type").bind fun h => boundary? h.2 with
  | some b => .ok (.add (submission b m.body.toList))
  | none => .error (textResponse 400 "Invalid `boundary` for `multipart/form-data` request")

/-- The call to look up the identifier in a path. -/
def lookupCall (segment : List Char) : Except Response Call :=
  match Utf8.decode? (Url.Percent.decode segment) with
  | some id => .ok (.lookup id)
  | none => .error (textResponse 400 "Invalid URL: Invalid UTF-8 in `cid`")

/-- The response to a method that a place does not take. -/
def wrongMethod : Response := ⟨405, ByteArray.empty⟩

/-- The response where there is nothing. -/
def noPlace : Response := ⟨404, ByteArray.empty⟩

/-- The call that a message is. -/
def route (m : Sent) : Except Response Call :=
  let posted (call : Except Response Call) : Except Response Call :=
    if m.method = "POST" then call else .error wrongMethod
  match m.url.path.map String.ofList with
  | ["api", "v0", "add"] => posted (addCall m)
  | ["api", "v0", "cat"] => posted ((queryArgument? m.url.query).map .cat)
  | ["api", "v0", "routing", "findprovs"] => posted ((queryArgument? m.url.query).map .findProviders)
  | ["cid", ""] => .error noPlace
  | ["cid", segment] =>
    if m.method = "GET" || m.method = "HEAD" then lookupCall segment.toList else .error wrongMethod
  | _ => .error noPlace

/-- Answers a message. The answer to a request for the head alone has no body. -/
def serve (g : Gateway) (m : Sent) : Response × Gateway :=
  match route m with
  | .error r => (r, g)
  | .ok call =>
    let (r, g) := g.handle call
    (if m.method = "HEAD" then { r with body := ByteArray.empty } else r, g)

end Cadence.Gateway
