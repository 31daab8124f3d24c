import Cadence.Benchmark.Preparation
import Cadence.Proofs.Exchange.Sending

/-!
# Judgement of exchanges

All operations judge what comes of their requests alike (`exchange_is_judged`): they look at the status of a response alone,
apart from uploads, whose responses have to tell an identifier (`Fulfilled`). There is one request for an item, and it is sent
unless its address is one that the client does not send requests to, such as one with a brace in its host
(`braced_host_is_never_asked`).
-/

namespace Cadence

open Http (Request Response SendError)

namespace Executor

/-- A reply counts as a success: it is a response with a status of success and, if it is to an upload, its body tells an
identifier. -/
def Fulfilled (e : Executor) (reply : Except SendError Response) : Prop :=
  ∃ r, reply = .ok r ∧ 200 ≤ r.status ∧ r.status < 300 ∧ (e.operation = .upload → ∃ id, Reply.rootHash r.body = .ok id)

/-- The outcome of an exchange that took `latency` and brought `reply`. -/
structure Judged (e : Executor) (latency : Duration) (reply : Except SendError Response) (o : Outcome) : Prop where
  latency_eq : o.latency = latency
  succeeded_iff : o.succeeded = true ↔ e.Fulfilled reply
  produced_iff : o.produced.isSome = true ↔ e.operation = .upload ∧ o.succeeded = true
  produced_root : ∀ id, o.produced = some id → id ≠ "" ∧ ∃ r, reply = .ok r ∧ Reply.rootHash r.body = .ok id

/-- What an operation makes of the body of a success: an upload takes the identifier that it tells or rejects it, all others
accept whatever it is. -/
inductive Accepts (e : Executor) (body : ByteArray) : Except String (Option String × List Log.Record) → Prop where
  | tells {id : String} {notes : List Log.Record} (hop : e.operation = .upload) (hid : Reply.rootHash body = .ok id) :
      Accepts e body (.ok (some id, notes))
  | rejects {reason : String} {f : Reply.RootError} (hop : e.operation = .upload) (hf : Reply.rootHash body = .error f) :
      Accepts e body (.error reason)
  | whatever {notes : List Log.Record} (hop : e.operation ≠ .upload) : Accepts e body (.ok (none, notes))

variable (e : Executor) (item : Item) {latency : Duration} {reply : Except SendError Response}

lemma accepts_accept (r : Response) : Accepts e r.body (e.accept item r) := by
  cases e with
  | upload u =>
    cases hroot : Reply.rootHash r.body with
    | ok id =>
      simp only [accept, hroot]
      exact .tells rfl hroot
    | error f =>
      simp only [accept, hroot]
      exact .rejects rfl hroot
  | download => exact .whatever nofun
  | findProviders => exact .whatever nofun
  | indexerLookup => exact .whatever nofun

lemma judged_failure {e : Executor} (h : ¬ e.Fulfilled reply) : e.Judged latency reply (.failure latency) where
  latency_eq := rfl
  succeeded_iff := ⟨nofun, fun hf => absurd hf h⟩
  produced_iff := ⟨nofun, fun hs => absurd hs.2 nofun⟩
  produced_root := nofun

end Executor

lemma Reply.rootHash_ne_empty {body : ByteArray} {id : String} (h : rootHash body = .ok id) : id ≠ "" := by
  rintro rfl
  unfold rootHash at h
  split at h
  · cases h
  split at h
  · split at h
    · cases h
    · next hnonempty =>
      cases h
      exact hnonempty rfl
  · cases h

namespace Executor

variable (e : Executor) (item : Item) (latency : Duration) (reply : Except SendError Response)

lemma judged_judge : e.Judged latency reply (e.judge item latency reply).1 := by
  cases reply with
  | error error =>
    refine judged_failure ?_
    rintro ⟨r, hreply, _⟩
    cases hreply
  | ok r =>
    by_cases hs : r.isSuccess = true
    · obtain ⟨h200, h300⟩ := r.isSuccess_iff.mp hs
      have haccept := accepts_accept e item r
      rw [judge, if_pos hs]
      cases h : e.accept item r with
      | error reason =>
        rw [h] at haccept
        cases haccept with
        | rejects hop hf =>
          refine judged_failure ?_
          rintro ⟨_, hreply, _, _, hroot⟩
          cases hreply
          obtain ⟨id, hid⟩ := hroot hop
          rw [hf] at hid
          cases hid
      | ok accepted =>
        rw [h] at haccept
        cases haccept with
        | tells hop hid =>
          refine ⟨rfl, ⟨fun _ => ⟨r, rfl, h200, h300, fun _ => ⟨_, hid⟩⟩, fun _ => rfl⟩, ⟨fun _ => ⟨hop, rfl⟩, fun _ => rfl⟩, ?_⟩
          intro _ hproduced
          cases hproduced
          exact ⟨Reply.rootHash_ne_empty hid, r, rfl, hid⟩
        | whatever hop =>
          exact ⟨rfl, ⟨fun _ => ⟨r, rfl, h200, h300, fun h => absurd h hop⟩, fun _ => rfl⟩,
            ⟨nofun, fun hs => absurd hs.1 hop⟩, nofun⟩
    · rw [judge, if_neg hs]
      refine judged_failure ?_
      rintro ⟨_, hreply, h200, h300, _⟩
      cases hreply
      exact hs (r.isSuccess_iff.mpr ⟨h200, h300⟩)

end Executor

namespace Benchmark

namespace Surroundings

open Http.Client (Sends await messages)

variable {s : Surroundings} {e : Executor} {timeout : Duration} {number : Nat} {item : Item}

/-- An operation that has its memory makes its request, and judges what comes of it. -/
lemma exchange_of_request {r : Request} (hmemory : s.allocation e item = .given)
    (h : e.request? (s.upload item) timeout item = some r) (number : Nat) :
    s.exchange e timeout number item =
      match Http.Client.request s.idna (s.network number) r with
      | .replies latency reply => .ending latency (e.judge item latency reply) (messages s.idna r)
      | .silent => ⟨.hangs, [], messages s.idna r⟩ := by
  cases hcomes : Http.Client.request s.idna (s.network number) r with
  | replies => simp only [exchange, hmemory, h, hcomes]
  | silent => simp only [exchange, hmemory, h, hcomes]

/-- An operation that waits for a limited time always hears of its message, though it may be that the time is over. -/
lemma await_inv (limit : Duration) (fate : Http.Fate) : ∃ latency reply, await limit fate = .replies latency reply := by
  cases fate with
  | silent => exact ⟨_, _, rfl⟩
  | replies after reply =>
    rw [await]
    split
    · exact ⟨_, _, rfl⟩
    · exact ⟨_, _, rfl⟩

/-- What comes of the request of an operation: what comes of waiting for its message, if the client sends requests to that
address, and otherwise an error at once. -/
inductive Comes (s : Surroundings) (e : Executor) (timeout : Duration) (number : Nat) (item : Item) :
    List Http.Sent → Duration → Except SendError Response → Prop where
  | sent {m latency reply} :
    Sends s.idna (e.target item) →
    m.method = e.method →
    Url.parse s.idna (e.target item) = .ok (.web m.url) →
    Executor.Carries (s.upload item) item m →
    await timeout (s.network number m) = .replies latency reply →
    Comes s e timeout number item [m] latency reply
  | refused {error} :
    ¬ Sends s.idna (e.target item) →
    Comes s e timeout number item [] .zero (.error error)

/-- An operation on an item of its kind, for which there is memory, ends with the judgement on what comes of its request. -/
lemma exchange_comes (timeout : Duration) (number : Nat) (hmemory : s.allocation e item = .given) (htakes : e.Takes item) :
    ∃ sent latency reply, Comes s e timeout number item sent latency reply ∧
      s.exchange e timeout number item = .ending latency (e.judge item latency reply) sent := by
  obtain ⟨r, hr, hrequests⟩ := Executor.requests (s.upload item) timeout htakes
  have hexchange := exchange_of_request hmemory hr number
  by_cases hsends : Sends s.idna r.url
  · obtain ⟨u, hu, hcheck⟩ := Http.Client.check_of_sends hsends hrequests.valid
    obtain ⟨latency, reply, hreply⟩ := await_inv timeout (s.network number ⟨r.method, u, Http.Client.headers u r, r.body⟩)
    refine ⟨_, latency, reply, .sent ?_ hrequests.method ?_ (hrequests.carries u) hreply, ?_⟩
    · exact hrequests.url ▸ hsends
    · exact hrequests.url ▸ hu
    · rw [hexchange, Http.Client.request, hcheck, messages, hcheck, hrequests.timeout]
      dsimp only
      rw [hreply]
  · have hmethod : r.method ≠ "CONNECT" := by
      rw [hrequests.method]
      exact e.method_ne_connect
    obtain ⟨error, hcheck⟩ := Http.Client.check_of_not_sends hsends hrequests.valid hmethod
    refine ⟨[], .zero, .error error, .refused (hrequests.url ▸ hsends), ?_⟩
    rw [hexchange, Http.Client.request, hcheck, messages, hcheck]

/-- What an operation does with an item. One of the wrong kind fails at once, and nothing is sent. For one of the right kind
there is one request, with the method of the operation, the item and its address. If the client sends requests to that address
it is sent, as one message, and what comes of it is awaited as long as an operation may take; otherwise nothing is sent, and
the request fails at once. The operation takes as long as that, and its outcome is judged by the reply alone. -/
theorem exchange_is_judged (s : Surroundings) (e : Executor) (timeout : Duration) (number : Nat) (item : Item)
    (hmemory : s.allocation e item = .given) :
    let exchange := s.exchange e timeout number item
    (¬ e.Takes item → exchange = .ending .zero (.failure .zero, [e.misfit item]) []) ∧
    (e.Takes item → ∃ latency reply o,
      exchange.behaviour = .finishes latency o ∧ e.Judged latency reply o ∧
      (Sends s.idna (e.target item) → ∃ m, exchange.sent = [m] ∧ m.method = e.method ∧
        Url.parse s.idna (e.target item) = .ok (.web m.url) ∧ Executor.Carries (s.upload item) item m ∧
        await timeout (s.network number m) = .replies latency reply) ∧
      (¬ Sends s.idna (e.target item) → exchange.sent = [] ∧ latency = .zero ∧ ∃ error, reply = .error error)) ∧
    (∀ n size, item = .payload n size → (s.upload item).contents.length = size) := by
  intro exchange
  refine ⟨fun h => ?_, fun h => ?_, ?_⟩
  · refine exchange_misfit ?_ number
    rw [← Option.not_isSome_iff_eq_none]
    exact fun hsome => h ((e.request?_isSome_iff (s.upload item) timeout item).mp hsome)
  · obtain ⟨sent, latency, reply, hcomes, hexchange⟩ := exchange_comes timeout number hmemory h
    have hsent : exchange.sent = sent := congrArg Exchange.sent hexchange
    refine ⟨latency, reply, _, congrArg Exchange.behaviour hexchange, e.judged_judge item latency reply, fun hsends => ?_,
      fun hrefuses => ?_⟩
    · cases hcomes with
      | sent _ hmethod hurl hcarries hreply => exact ⟨_, hsent, hmethod, hurl, hcarries, hreply⟩
      | refused hrefuses => exact absurd hsends hrefuses
    · cases hcomes with
      | sent hsends => exact absurd hsends hrefuses
      | refused => exact ⟨hsent, rfl, _, rfl⟩
  · rintro n size rfl
    exact (s.chance.upload n size).property

end Surroundings

/-- Surroundings in which every message is replied to at once, with success and a text, there is memory for everything, and
nothing is left to chance. -/
def answering (text : String) : Surroundings where
  chance := .zeros
  network _ _ := .replies .zero (.ok ⟨200, text.toUTF8⟩)
  interrupt := none
  memory _ := none
  idna := .unaware

namespace Surroundings

open Http.Client (Sends)

/-- An operation below a base, which has its memory, sends exactly one message for an item, to a URL, and succeeds. -/
def SendsOne (s : Surroundings) (op : Operation) (base : String) (item : Item) (url : String) : Prop :=
  ∃ e m o, Executor.create s.idna op base 20 = .ok e ∧ s.allocation e item = .given ∧
    (s.exchange e (.ofSeconds 10) 0 item).sent = [m] ∧ Url.parse s.idna url = .ok (.web m.url) ∧
    (s.exchange e (.ofSeconds 10) 0 item).behaviour = .finishes .zero o ∧ o.succeeded = true

/-- At a base where everything is answered with success, each of the operations sends exactly one message, and succeeds. -/
theorem every_operation_sends_one_message :
    let s := answering "\x7b\"Hash\":\"bafya\"\x7d"
    s.SendsOne .upload "http://127.0.0.1:5001" (.payload 0 3) "http://127.0.0.1:5001/api/v0/add?cid-version=1&pin=true" ∧
    s.SendsOne .download "http://127.0.0.1:5001" (.key "bafy") "http://127.0.0.1:5001/api/v0/cat?arg=bafy" ∧
    s.SendsOne .findProviders "http://127.0.0.1:5001" (.key "bafy")
      "http://127.0.0.1:5001/api/v0/routing/findprovs?arg=bafy&verbose=false&num-providers=20" ∧
    s.SendsOne .indexerLookup "http://127.0.0.1:5001" (.key "bafy") "http://127.0.0.1:5001/cid/bafy" := by
  intro s
  have hroot : ∃ id, Reply.rootHash "\x7b\"Hash\":\"bafya\"\x7d".toUTF8 = .ok id := by
    have htold : (Reply.rootHash "\x7b\"Hash\":\"bafya\"\x7d".toUTF8).isOk = true := by decide +kernel
    cases h : Reply.rootHash "\x7b\"Hash\":\"bafya\"\x7d".toUTF8 with
    | error => rw [h] at htold; cases htold
    | ok id => exact ⟨id, rfl⟩
  -- what can be computed of each operation is its address, and whether the client sends requests to it
  have key : ∀ op item url,
      (Executor.create .unaware op "http://127.0.0.1:5001" 20).toOption.map (·.target item) = some url →
      (Endpoint.of .unaware url "").isOk = true →
      Http.Target.form? url.toList = some .absolute →
      (∀ e, Executor.create .unaware op "http://127.0.0.1:5001" 20 = .ok e → s.allocation e item = .given ∧ e.Takes item) →
      s.SendsOne op "http://127.0.0.1:5001" item url := by
    intro op item url htarget hweb hform htakes
    cases he : Executor.create .unaware op "http://127.0.0.1:5001" 20 with
    | error => rw [he] at htarget; cases htarget
    | ok e =>
      rw [he] at htarget
      obtain rfl : e.target item = url := Option.some.inj htarget
      obtain ⟨hmemory, htaken⟩ := htakes e he
      obtain ⟨_, hjudged, _⟩ := exchange_is_judged s e (.ofSeconds 10) 0 item hmemory
      obtain ⟨latency, reply, o, hbehaviour, ho, hsent, _⟩ := hjudged htaken
      have hsends : Sends s.idna (e.target item) := by
        refine ⟨?_, hform⟩
        cases hof : Endpoint.of .unaware (e.target item) "" with
        | error => rw [hof] at hweb; cases hweb
        | ok =>
          obtain ⟨u, hu, _⟩ := Endpoint.of_ok hof
          exact ⟨u, hu⟩
      obtain ⟨m, hm, _, hurl, _, hreply⟩ := hsent hsends
      cases hreply
      exact ⟨e, m, o, he, hmemory, hm, hurl, hbehaviour, ho.succeeded_iff.mpr ⟨_, rfl, by decide, by decide, fun _ => hroot⟩⟩
  have hgiven : ∀ e number size, size ≤ largestBlock → s.allocation e (.payload number size) = .given := by
    intro e number size hsize
    cases e with
    | upload => exact if_neg (Nat.not_lt.mpr hsize)
    | _ => rfl
  refine ⟨key _ _ _ (by decide +kernel) (by decide +kernel) (by decide +kernel) fun e he => ⟨hgiven e 0 3 (by decide), ?_⟩,
    key _ _ _ (by decide +kernel) (by decide +kernel) (by decide +kernel) fun e he => ⟨s.allocation_of_key e _, ?_⟩,
    key _ _ _ (by decide +kernel) (by decide +kernel) (by decide +kernel) fun e he => ⟨s.allocation_of_key e _, ?_⟩,
    key _ _ _ (by decide +kernel) (by decide +kernel) (by decide +kernel) fun e he => ⟨s.allocation_of_key e _, ?_⟩⟩
  all_goals
    rw [Executor.Takes, create_operation he]
    decide

/-- A base with a brace in its host is a URL of the web, but no target in the strict sense: a download from there has its
executor, and sends nothing. -/
theorem braced_host_is_never_asked :
    ∃ e, Executor.create .unaware .download "http://a\x7bb" 20 = .ok e ∧ e.Takes (.key "bafy") ∧
      (answering "").allocation e (.key "bafy") = .given ∧
      ((answering "").exchange e (.ofSeconds 10) 0 (.key "bafy")).sent = [] := by
  have hsent : (Executor.create .unaware .download "http://a\x7bb" 20).toOption.map
      (fun e => ((answering "").exchange e (.ofSeconds 10) 0 (.key "bafy")).sent.isEmpty) = some true := by decide +kernel
  cases he : Executor.create .unaware .download "http://a\x7bb" 20 with
  | error => rw [he] at hsent; cases hsent
  | ok e =>
    rw [he] at hsent
    refine ⟨e, rfl, ?_, allocation_of_key _ _ _, List.isEmpty_iff.mp (Option.some.inj hsent)⟩
    rw [Executor.Takes, create_operation he]
    decide

end Surroundings
end Benchmark
end Cadence
