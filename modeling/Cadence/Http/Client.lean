import Cadence.Clock
import Cadence.Http.Header
import Cadence.Http.Message
import Cadence.Http.Target
import Cadence.Url.Parser

/-!
# Sending requests

A request is checked before anything is sent: its URL, then its target, then its headers. What passes is handed to
a network, which is any function from the messages that are sent to what comes of them. A request with a limit waits for its
reply as long as that, and not longer.

* `Client.check` says whether a request can be sent, and what is sent then.
* `Client.request` is what comes of a request.
* `Client.request_checked`: a request that fails the check never reaches the network.
-/

namespace Cadence.Http

/-- What goes over a network: the request with the headers that were added. -/
structure Sent where
  method : String
  url : Url
  headers : List (String × String)
  body : ByteArray

/-- What comes of a message: a reply after some time, or nothing ever. -/
inductive Fate where
  | replies (after : Duration) (reply : Except SendError Response)
  | silent

/-- What a network makes of a message. -/
abbrev Network := Sent → Fate

namespace Client

/-- The name and the port of the host, as they are sent. -/
def hostHeader (u : Url) : String := String.ofList u.authority

/-- The headers that are sent: the host and the length of the body in front, unless they are given. -/
def headers (u : Url) (r : Request) : List (String × String) :=
  (if Header.has r.headers "host" then [] else [("host", hostHeader u)])
    ++ (if Header.has r.headers "content-length" then [] else [("content-length", toString r.body.size)])
    ++ r.headers

/-- What is sent for a request that can be sent. -/
def check (idna : Url.Idna) (r : Request) : Except SendError Sent :=
  match Url.parse idna r.url with
  | .error _ => .error (.invalidUrl r.url)
  | .ok (.other _) => .error (.unsupportedScheme r.url)
  | .ok (.web u) =>
    match Target.form? r.url.toList with
    | none => .error (.invalidUrl r.url)
    | some form =>
      match Header.fault? r.headers with
      | some reason => .error (.invalidRequest reason)
      | none =>
        if form = .absolute || r.method = "CONNECT" then .ok ⟨r.method, u, headers u r, r.body⟩
        else .error (.connect "client error (UserAbsoluteUriRequired)")

/-- How long a request with a limit waits, as the grain of timers is one millisecond. -/
def patience (limit : Duration) : Duration := Duration.clamp (Clock.ceilMs (Clock.after 0 limit))

/-- What comes of waiting so: a reply that comes in time, even at the last instant, or that the time is over. -/
def await (limit : Duration) : Fate → Fate
  | .replies after reply =>
    if after.nanos ≤ (patience limit).nanos then .replies after reply
    else .replies (patience limit) (.error (.timeout limit))
  | .silent => .replies (patience limit) (.error (.timeout limit))

/-- What comes of a request. -/
def request (idna : Url.Idna) (network : Network) (r : Request) : Fate :=
  match check idna r with
  | .error e => .replies Duration.zero (.error e)
  | .ok m =>
    match r.timeout with
    | some limit => await limit (network m)
    | none => network m

/-- The messages that go over the network for a request. -/
def messages (idna : Url.Idna) (r : Request) : List Sent :=
  match check idna r with
  | .error _ => []
  | .ok m => [m]

/-- A network in which no place can be reached. -/
def offline : Network := fun _ => .replies Duration.zero (.error .unreachable)

theorem request_checked {idna : Url.Idna} {r : Request} {e : SendError} (h : check idna r = .error e) (network : Network) :
    request idna network r = .replies Duration.zero (.error e) ∧ messages idna r = [] := by
  simp [request, messages, h]

end Client
end Cadence.Http
