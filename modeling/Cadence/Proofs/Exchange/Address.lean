import Cadence.Exchange.Executor
import Cadence.Proofs.Exchange.Endpoint

/-!
# Addresses of requests for keys

The address that a download or a lookup of providers asks stands below the base (`Below`) and tells the key in its query, and
so no two keys have one address (`key_is_asked_for`).
-/

namespace Cadence

open Url (Form.pairs Path.text)
open Url.Path (Settled)

/-- The path of an operation below its base. -/
def Operation.path : Operation → String
  | .upload => "/api/v0/add"
  | .download => "/api/v0/cat"
  | .findProviders => "/api/v0/routing/findprovs"
  | .indexerLookup => "/cid"

/-- The pairs by which an operation asks for a key. -/
def Operation.asked (most : Nat) (key : String) : Operation → List (List Char × List Char)
  | .download => [("arg".toList, key.toList)]
  | .findProviders =>
    [("arg".toList, key.toList), ("verbose".toList, "false".toList), ("num-providers".toList, (toString most).toList)]
  | _ => []

namespace Url

/-- A URL at a path below a base, with pairs added to the query of the base. -/
structure Below (base : Url) (path : List Char) (added : List (List Char × List Char)) (u : Url) : Prop where
  scheme : u.scheme = base.scheme
  host : u.host = base.host
  port : u.port = base.port
  path : Path.text u.path = Endpoint.trimEnd (Path.text base.path) ++ path
  pairs : Form.pairs (u.query.getD []) = Form.pairs (base.query.getD []) ++ added

variable {base u : Url} {path : List Char} {added : List (List Char × List Char)}

lemma Below.withPair (h : Below base path added u) (name value : String) :
    Below base path (added ++ [(name.toList, value.toList)]) (u.withPair name value) where
  scheme := h.scheme
  host := h.host
  port := h.port
  path := h.path
  pairs := by
    rw [← List.append_assoc, ← h.pairs]
    exact Form.pairs_append _ _ _

/-- URLs that differ in nothing but their query have different texts. -/
lemma query_eq_of_text_eq {q r : List Char} (h : { u with query := some q }.text = { u with query := some r }.text) :
    q = r := by
  simpa [text, resource, authority, after] using h

end Url

namespace Endpoint

variable {idna : Url.Idna} {base path : String} {u : Url}

/-- An endpoint stands at its path below its base. -/
lemma below_of (h : of idna base path = .ok u) (first : List Char) (segments : List (List Char))
    (hpath : path.toList = Path.text (first :: segments)) (hfirst : first ≠ [])
    (hsettled : ∀ s ∈ first :: segments, Settled s) :
    ∃ b, Url.parse idna base = .ok (.web b) ∧ Url.Below b path.toList [] u := by
  obtain ⟨b, hb, hscheme, _, hhost, hport, hquery, _⟩ := of_ok h
  obtain ⟨front, _, hfront, hu⟩ := of_path h hb hpath hfirst hsettled
  refine ⟨b, hb, hscheme, hhost, hport, ?_, by rw [hquery, List.append_nil]⟩
  rw [hu, Url.Path.text_append, hfront, hpath]

end Endpoint

namespace Executor

open CommandLine.Setting (map_eq_ok)

variable {idna : Url.Idna} {op : Operation} {base : String} {most : Nat} {e : Executor} {key other : String}

/-- The operations whose addresses ask for a key by pairs of their query. -/
def Asks (op : Operation) : Prop := op = .download ∨ op = .findProviders

/-- The address for a key stands below the base and asks for the key. -/
lemma address_below (hop : Asks op) (h : create idna op base most = .ok e) :
    ∃ b, Url.parse idna base = .ok (.web b) ∧ ∀ key, Url.Below b op.path.toList (op.asked most key) (e.address key) := by
  rcases hop with rfl | rfl
  · obtain ⟨u, hu, rfl⟩ := map_eq_ok h
    obtain ⟨b, hb, hbelow⟩ :=
      Endpoint.below_of hu "api".toList ["v0".toList, "cat".toList] rfl (by decide) (by decide)
    exact ⟨b, hb, fun key => hbelow.withPair "arg" key⟩
  · obtain ⟨u, hu, rfl⟩ := map_eq_ok h
    obtain ⟨b, hb, hbelow⟩ := Endpoint.below_of hu "api".toList ["v0".toList, "routing".toList, "findprovs".toList]
      rfl (by decide) (by decide)
    refine ⟨b, hb, fun key => ?_⟩
    exact ((hbelow.withPair "arg" key).withPair "verbose" "false").withPair "num-providers" (toString most)

lemma operation_of_create (h : create idna op base most = .ok e) : e.operation = op := by
  cases op
  all_goals
    obtain ⟨u, _, rfl⟩ := map_eq_ok h
    rfl

lemma asks_inv (hop : Asks e.operation) : (∃ u, e = download u) ∨ ∃ u most, e = findProviders u most := by
  cases e with
  | download u => exact .inl ⟨u, rfl⟩
  | findProviders u most => exact .inr ⟨u, most, rfl⟩
  | upload => rcases hop with hop | hop <;> cases hop
  | indexerLookup => rcases hop with hop | hop <;> cases hop

lemma query_eq_of_addressText_eq (hop : Asks e.operation) (h : e.addressText key = e.addressText other) :
    (e.address key).query = (e.address other).query := by
  have htext := String.ofList_inj.mp h
  rcases asks_inv hop with ⟨u, rfl⟩ | ⟨u, most, rfl⟩
  · exact congrArg some (Url.query_eq_of_text_eq htext)
  · exact congrArg some (Url.query_eq_of_text_eq htext)

lemma asked_injective (hop : Asks op) (h : op.asked most key = op.asked most other) : key = other := by
  rcases hop with rfl | rfl
  · simpa [Operation.asked, String.toList_inj] using h
  · simpa [Operation.asked, String.toList_inj] using h

/-- No two keys have one address. -/
lemma addressText_injective (hop : Asks op) (h : create idna op base most = .ok e) : Function.Injective e.addressText := by
  obtain rfl := operation_of_create h
  obtain ⟨b, _, hbelow⟩ := address_below hop h
  intro key other hsame
  have hpairs := (hbelow key).pairs
  rw [query_eq_of_addressText_eq hop hsame, (hbelow other).pairs] at hpairs
  exact asked_injective hop (List.append_cancel_left hpairs).symm

lemma request?_key (hop : Asks e.operation) (payload : Upload) (timeout : Duration) (key : String) :
    ∃ r, e.request? payload timeout (.key key) = some r ∧ r.url = e.addressText key := by
  rcases asks_inv hop with ⟨u, rfl⟩ | ⟨u, most, rfl⟩
  · exact ⟨_, rfl, rfl⟩
  · exact ⟨_, rfl, rfl⟩

/-- The request of a download, or of a lookup of providers, for a key goes to an address below the base that asks for that
key: scheme, host and port are those of the base, its path is that of the base without the slashes at its end and then that
of the operation, and the pairs of its query are those of the base and then those that ask for the key. So no two keys have
one address. -/
theorem key_is_asked_for {idna : Url.Idna} {op : Operation} (hop : Asks op) {base : String} {most : Nat} {e : Executor}
    (h : create idna op base most = .ok e) :
    ∃ b, Url.parse idna base = .ok (.web b) ∧
      (∀ payload timeout key, ∃ r, e.request? payload timeout (.key key) = some r ∧ r.url = e.addressText key) ∧
      (∀ key, Url.Below b op.path.toList (op.asked most key) (e.address key)) ∧ Function.Injective e.addressText := by
  obtain ⟨b, hb, hbelow⟩ := address_below hop h
  have hrequest := request?_key (operation_of_create h ▸ hop)
  exact ⟨b, hb, hrequest, hbelow, addressText_injective hop h⟩

/-- A base with a port, slashes at its end and a query. -/
theorem key_is_asked_for_below_a_path :
    Asks .findProviders ∧ ∃ e, create .unaware .findProviders "http://h:8080/a//?x=1" 2 = .ok e ∧
      ∃ b, Url.parse .unaware "http://h:8080/a//?x=1" = .ok (.web b) ∧
        (∀ payload timeout key, ∃ r, e.request? payload timeout (.key key) = some r ∧ r.url = e.addressText key) ∧
        (∀ key, Url.Below b Operation.findProviders.path.toList (Operation.findProviders.asked 2 key) (e.address key)) ∧
        Function.Injective e.addressText := by
  refine ⟨.inr rfl, ?_⟩
  have hok : (create .unaware .findProviders "http://h:8080/a//?x=1" 2).isOk = true := by decide +kernel
  cases h : create .unaware .findProviders "http://h:8080/a//?x=1" 2 with
  | error => rw [h] at hok; cases hok
  | ok e => exact ⟨e, rfl, key_is_asked_for (.inr rfl) h⟩

example : (create .unaware .download "http://h:8080/a//?x=1" 0).toOption.map (·.addressText "a+b &%")
    = some "http://h:8080/a/api/v0/cat?x=1&arg=a%2Bb+%26%25" := by decide +kernel

end Executor

end Cadence
