import Cadence.Failure
import Cadence.Url.Parser

/-!
# Endpoints

The address of one service below the base URL that the user gave.

* `Endpoint.join` appends a path to the path of the base, with one slash between them.
* `Endpoint.of_ok`: an endpoint keeps all of its base but the path.
-/

namespace Cadence.Endpoint

/-- Why a base leads to no endpoint. -/
inductive EndpointError where
  | invalidBase (base : String) (fault : Url.UrlError)
  | unsupportedScheme (base : String)
deriving DecidableEq

/-- The texts of an error, the outermost first. -/
def EndpointError.causes : EndpointError → List String
  | .invalidBase base fault => ["invalid base url: " ++ base, fault.message]
  | .unsupportedScheme base => ["unsupported scheme in " ++ base ++ " (expected http or https)"]

/-- The failure of a command that an error makes. -/
def EndpointError.failure (e : EndpointError) : Failure := ⟨true, e.causes⟩

/-- A text without the slashes at its end. -/
def trimEnd (s : List Char) : List Char := (s.reverse.dropWhile (· = '/')).reverse

/-- A path below another. -/
def join (base path : List Char) : List Char := trimEnd base ++ ['/'] ++ path.dropWhile (· = '/')

/-- The endpoint at a path below a base. -/
def of (idna : Url.Idna) (base path : String) : Except EndpointError Url :=
  match Url.parse idna base with
  | .error e => .error (.invalidBase base e)
  | .ok (.other _) => .error (.unsupportedScheme base)
  | .ok (.web u) => .ok (u.withPath (join (Url.Path.text u.path) path.toList))

theorem of_ok {idna : Url.Idna} {base path : String} {u : Url} (h : of idna base path = .ok u) :
    ∃ b : Url, Url.parse idna base = .ok (.web b) ∧ u.scheme = b.scheme ∧ u.user = b.user ∧ u.host = b.host
      ∧ u.port = b.port ∧ u.query = b.query ∧ u.fragment = b.fragment := by
  unfold of at h
  split at h
  · cases h
  · cases h
  · next b hb => cases h; exact ⟨b, hb, rfl, rfl, rfl, rfl, rfl, rfl⟩

end Cadence.Endpoint
