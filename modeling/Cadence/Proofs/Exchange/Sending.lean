import Cadence.Exchange.Executor
import Mathlib.Tactic.Lemma

/-!
# What is sent for a request

The client takes a request whose headers are valid exactly if it can be sent to its address (`Client.Sends`): the text of it
is a URL of the web, and a target in the strict sense. What an operation makes for an item is such a request, to the address of
that item, with all that belongs to it (`Executor.requests`); so whether it is sent depends on the address alone.
-/

namespace Cadence

namespace Text.Hex

/-- The digits of a number are hexadecimal digits in small letters. -/
lemma exists_of_mem_toDigits {n : Nat} {c : Char} (h : c ∈ Nat.toDigits 16 n) : ∃ d < 16, c = d.digitChar := by
  induction n using Nat.strongRecOn with
  | ind n ih =>
    rw [Nat.toDigits_eq_if (by decide)] at h
    split at h
    · next hlt => exact ⟨n, hlt, List.mem_singleton.mp h⟩
    · next hlt =>
      rcases List.mem_append.mp h with h | h
      · exact ih (n / 16) (by omega) h
      · exact ⟨n % 16, Nat.mod_lt n (by decide), List.mem_singleton.mp h⟩

lemma exists_of_mem_digits {width n : Nat} {c : Char} (h : c ∈ digits width n) : ∃ d < 16, c = d.digitChar := by
  rcases List.mem_append.mp h with h | h
  · exact ⟨0, by decide, (List.mem_replicate.mp h).2⟩
  · exact exists_of_mem_toDigits h

end Text.Hex

namespace Http

namespace Client

variable {idna : Url.Idna} {r : Request}

/-- The client sends requests to an address: the text of it is a URL of the web, and a target in the strict sense. -/
structure Sends (idna : Url.Idna) (url : String) : Prop where
  web : ∃ u, Url.parse idna url = .ok (.web u)
  target : Target.form? url.toList = some .absolute

lemma check_of_sends (h : Sends idna r.url) (hheaders : Header.fault? r.headers = none) :
    ∃ u, Url.parse idna r.url = .ok (.web u) ∧ check idna r = .ok ⟨r.method, u, headers u r, r.body⟩ := by
  obtain ⟨u, hu⟩ := h.web
  refine ⟨u, hu, ?_⟩
  simp [check, hu, h.target, hheaders]

lemma check_of_not_sends (h : ¬ Sends idna r.url) (hheaders : Header.fault? r.headers = none) (hmethod : r.method ≠ "CONNECT") :
    ∃ e, check idna r = .error e := by
  unfold check
  split
  · exact ⟨_, rfl⟩
  · exact ⟨_, rfl⟩
  · next u hu =>
    split
    · exact ⟨_, rfl⟩
    · next form hform =>
      rw [hheaders]
      have habsolute : form ≠ .absolute := by
        rintro rfl
        exact h ⟨⟨u, hu⟩, hform⟩
      simp [habsolute, hmethod]

end Client

namespace Multipart

/-- The type of a form that is divided by a random boundary is a valid value of a header. -/
lemma isValue_contentType (token : UInt64) : Header.isValue (contentType (boundaryOf token)) = true := by
  have hdigit : ∀ d ∈ List.range 16, (Text.Utf8.encode [d.digitChar]).all Header.isValueByte = true := by decide +kernel
  have hfront : (Text.Utf8.encode ("multipart/form-data; boundary=".toList ++ "cidbench-".toList)).all
      Header.isValueByte = true := by decide +kernel
  have hjoin : ∀ (a b : String) (cs : List Char), (a ++ (b ++ String.ofList cs)).toList = a.toList ++ b.toList ++ cs := by
    simp
  have htext : (contentType (boundaryOf token)).toList
      = "multipart/form-data; boundary=".toList ++ "cidbench-".toList ++ Text.Hex.digits 16 token.toNat := hjoin _ _ _
  unfold Header.isValue
  rw [htext, Text.Utf8.encode, List.flatMap_append, List.all_append, Bool.and_eq_true]
  refine ⟨hfront, ?_⟩
  rw [List.all_flatMap, List.all_eq_true]
  intro c hc
  obtain ⟨d, hd, rfl⟩ := Text.Hex.exists_of_mem_digits hc
  simpa [Text.Utf8.encode] using hdigit d (List.mem_range.mpr hd)

end Multipart
end Http

namespace Executor

open Http (Request Sent)
open Http.Multipart (boundaryOf contentType encode)

/-- An item is of the kind that an operation takes: payloads are for uploads, keys for all others. -/
def Takes (e : Executor) (item : Item) : Prop := e.operation = .upload ↔ item.key? = none

/-- The method of the requests of an operation. -/
def method : Executor → String
  | indexerLookup _ => "GET"
  | _ => "POST"

/-- The text of the address that an operation asks for an item. -/
def target (e : Executor) (item : Item) : String := e.addressText (item.key?.getD "")

/-- A message carries what an item is: the payload in a form of one file, or nothing for a key, which the address tells. -/
inductive Carries (payload : Upload) : Item → Sent → Prop where
  | payload {number size m} :
    m.body = ⟨(encode (boundaryOf payload.token) [⟨"file", fileName number, payload.contents⟩]).toArray⟩ →
    ("content-type", contentType (boundaryOf payload.token)) ∈ m.headers →
    Carries payload (.payload number size) m
  | key {key m} :
    m.body = ByteArray.empty →
    Carries payload (.key key) m

/-- The request of an operation for an item: it goes to the address of the item, may take as long as an operation may, has
valid headers, and carries the item. -/
structure Requests (e : Executor) (payload : Upload) (timeout : Duration) (item : Item) (r : Request) : Prop where
  method : r.method = e.method
  url : r.url = e.target item
  timeout : r.timeout = some timeout
  valid : Http.Header.fault? r.headers = none
  carries : ∀ u, Carries payload item ⟨r.method, u, Http.Client.headers u r, r.body⟩

variable {e : Executor} {item : Item}

lemma method_ne_connect (e : Executor) : e.method ≠ "CONNECT" := by
  have hpost : "POST" ≠ "CONNECT" := by decide
  have hget : "GET" ≠ "CONNECT" := by decide
  cases e with
  | indexerLookup => exact hget
  | _ => exact hpost

/-- An operation makes a request for every item that it takes. -/
theorem requests (payload : Upload) (timeout : Duration) (h : e.Takes item) :
    ∃ r, e.request? payload timeout item = some r ∧ e.Requests payload timeout item r := by
  have hno : Http.Header.fault? [] = none := rfl
  have hjson : Http.Header.fault? [("accept", "application/json")] = none := by decide +kernel
  have hname : Http.Header.isName "content-type" = true := by decide +kernel
  have hform : Http.Header.fault? [("content-type", contentType (boundaryOf payload.token))] = none :=
    (Http.Header.fault?_eq_none_iff _).mpr
      (List.forall_mem_singleton.mpr ⟨hname, Http.Multipart.isValue_contentType payload.token⟩)
  cases e <;> cases item
  case upload.payload u number size =>
    refine ⟨_, rfl, rfl, rfl, rfl, hform, fun _ => .payload rfl ?_⟩
    exact List.mem_append_right _ List.mem_cons_self
  case download.key | findProviders.key => exact ⟨_, rfl, rfl, rfl, rfl, hno, fun _ => .key rfl⟩
  case indexerLookup.key => exact ⟨_, rfl, rfl, rfl, rfl, hjson, fun _ => .key rfl⟩
  case upload.key => exact absurd (h.mp rfl) nofun
  all_goals exact absurd (h.mpr rfl) nofun

end Executor
end Cadence
