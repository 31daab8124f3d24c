import Cadence.Duration.Notation

/-!
# Requests and responses

* `Response.isSuccess_iff`: the statuses of success are those from 200 to 299.
-/

namespace Cadence.Http

/-- A request to be sent. -/
structure Request where
  method : String
  url : String
  headers : List (String × String)
  body : ByteArray
  timeout : Option Duration

namespace Request

/-- A request for a resource. -/
def get (url : String) : Request := ⟨"GET", url, [], ByteArray.empty, none⟩

/-- A request with a body. -/
def post (url : String) (body : ByteArray) : Request := ⟨"POST", url, [], body, none⟩

/-- The request with a further header. -/
def withHeader (r : Request) (name value : String) : Request :=
  { r with headers := r.headers ++ [(name, value)] }

/-- The request with a limit to the time that the exchange may take. -/
def withTimeout (r : Request) (limit : Duration) : Request := { r with timeout := some limit }

end Request

/-- What came back. -/
structure Response where
  status : Nat
  body : ByteArray

namespace Response

/-- Whether the status tells success. -/
def isSuccess (r : Response) : Bool := 200 ≤ r.status && r.status < 300

/-- The body as text. -/
def text? (r : Response) : Option String := String.fromUTF8? r.body

theorem isSuccess_iff (r : Response) : r.isSuccess = true ↔ 200 ≤ r.status ∧ r.status < 300 := by
  simp [isSuccess]

end Response

/-- Why an exchange brought no response. -/
inductive SendError where
  | invalidUrl (url : String)
  | unsupportedScheme (url : String)
  | invalidRequest (reason : String)
  | connect (reason : String)
  | timeout (limit : Duration)
  | body (reason : String)
deriving DecidableEq

namespace SendError

/-- The name of the class that an error belongs to. -/
def kind : SendError → String
  | invalidUrl _ => "invalid_url"
  | unsupportedScheme _ => "unsupported_scheme"
  | invalidRequest _ => "invalid_request"
  | connect _ => "connect"
  | timeout _ => "timeout"
  | body _ => "body"

/-- The wording of an error. -/
def message : SendError → String
  | invalidUrl url => "invalid url: " ++ url
  | unsupportedScheme url => "expected an http:// or https:// url: " ++ url
  | invalidRequest reason => "malformed request: " ++ reason
  | connect reason => "connection failed: " ++ reason
  | timeout limit => "timed out after " ++ limit.exact
  | body reason => "response body interrupted: " ++ reason

/-- The error of a place where nothing listens. -/
def unreachable : SendError := connect "client error (Connect)"

end SendError
end Cadence.Http
