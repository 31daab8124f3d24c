import Cadence.Proofs.Run.Counts
import Cadence.Proofs.Run.Standstill
import Cadence.Run.Simulation

/-!
# The log of a run

What a run notes in the log follows its phases: that it began, failures as their results are taken in, once that
dispatch stopped, more failures, and at last how it ended (`Course.Logged`). `Adds` says that a run noted failures and
nothing else; between the moves in which it begins, stops and ends, it does just that (`Leads.adds`).

* `stopped_run_never_restarts` puts together what holds once dispatch has stopped, and the shape of the log.
-/

namespace Cadence.Run

/-- The latency of a result, if it is a failure. -/
def Completion.failure? (k : Completion) : Option Duration :=
  if k.outcome.succeeded then none else some k.outcome.latency

/-- The log of a run that has ended, with failures before and after dispatch stopped with so many operations in
flight. -/
structure Course.Logged (course : Course) (plan : Plan) (summary : Summary) (inFlight : Nat)
    (before after : List Duration) : Prop where
  notes : course.notes.toList
    = .started plan.rate plan.tick plan.targetRate :: before.map .operationFailed
      ++ .draining summary.cause inFlight summary.snapshot.sent :: after.map .operationFailed
      ++ [.terminated summary.cause summary.snapshot.sent summary.snapshot.completed summary.snapshot.failed]
  messages : (course.notes.toList.map fun n => n.record.message)
    = "run started" :: List.replicate before.length "operation failed"
      ++ "dispatch stopped, draining" :: List.replicate after.length "operation failed"
      ++ ["run terminated"]
  failed : summary.snapshot.failed = Count.cap (before.length + after.length)

lemma messages_operationFailed (latencies : List Duration) :
    ((latencies.map Note.operationFailed).map fun n => n.record.message)
      = List.replicate latencies.length "operation failed" := by
  rw [List.map_map]
  exact List.map_const' ..

namespace Controller

variable {σ : Type}

/-- The latencies of the failures that were taken in, in order. -/
def failures (c : Controller σ) : List Duration := c.completions.toList.filterMap Completion.failure?

/-- From `c` to `d` failures with these latencies were taken in, and nothing else was noted. -/
structure Adds (c d : Controller σ) (latencies : List Duration) : Prop where
  notes : d.notes.toList = c.notes.toList ++ latencies.map .operationFailed
  failures : d.failures = c.failures ++ latencies

lemma Adds.nothing {c d : Controller σ} (hn : d.notes = c.notes) (hc : d.completions = c.completions) :
    Adds c d [] where
  notes := by rw [hn, List.map_nil, List.append_nil]
  failures := by rw [Controller.failures, hc, List.append_nil, Controller.failures]

lemma Adds.trans {c d e : Controller σ} {before after} (h : Adds c d before) (h' : Adds d e after) :
    Adds c e (before ++ after) where
  notes := by rw [h'.notes, h.notes, List.map_append, List.append_assoc]
  failures := by rw [h'.failures, h.failures, List.append_assoc]

lemma Adds.settle {c d : Controller σ} {latencies} (h : Adds c d latencies) : Adds c d.settle latencies :=
  ⟨h.notes, h.failures⟩

/-- A result that is taken in adds itself if it is a failure. -/
lemma Adds.absorb (c : Controller σ) (now operation : Nat) (o : Outcome) (inFlight : InFlight) :
    Adds c (c.absorb now operation o inFlight) (Completion.failure? ⟨now, operation, o⟩).toList := by
  unfold Completion.failure?
  cases hs : o.succeeded with
  | true => constructor <;> simp [Controller.absorb, Controller.failures, Completion.failure?, hs]
  | false => constructor <;> simp [Controller.absorb, Controller.failures, Completion.failure?, hs]

/-- A reaction adds failures and nothing else, unless it stops the run. -/
lemma Reaction.adds [Source σ] {c d : Controller σ} {now e} (h : Reaction c now e d)
    (hp : c.phase = .running → d.phase = .running) : ∃ latencies, Adds c d.settle latencies := by
  cases h with
  | interrupt hr =>
    have hd := hp hr
    rw [stop_of_running hr] at hd
    cases hd
  | completion => exact ⟨_, (Adds.absorb c now _ _ _).settle⟩
  | deadline hr =>
    have hd := hp hr
    rw [stop_of_running hr] at hd
    cases hd
  | report => exact ⟨[], .nothing rfl rfl⟩
  | tick =>
    rw [feed_eq]
    exact ⟨[], .nothing rfl rfl⟩
  | lastTick hr =>
    have hd := hp hr
    rw [stop_of_running (feed_running hr)] at hd
    cases hd

/-- As many failures as results that are none of a success. -/
lemma failures_length (c : Controller σ) :
    c.failures.length = c.completions.toList.countP (!·.outcome.succeeded) := by
  rw [failures, List.length_filterMap_eq_countP]
  apply List.countP_congr
  intro k _
  unfold Completion.failure?
  cases k.outcome.succeeded <;> simp

end Controller

namespace System
open Controller

variable {σ : Type} [Source σ]

/-- A move adds failures and nothing else, unless it stops the run. -/
lemma step_adds {s t : System σ} {now m} (hs : s.step now m = .ok t)
    (hp : s.controller.phase = .running → t.controller.phase = .running) :
    ∃ latencies, Adds s.controller t.controller latencies := by
  cases step_inv hs with
  | same => exact ⟨[], .nothing rfl rfl⟩
  | finish => exact ⟨[], .nothing rfl rfl⟩
  | receive ht _ hf => exact Reaction.adds (.completion ht hf) id
  | signal _ hr => exact hr.adds fun h => settle_running.mp (hp h)

/-- While a run dispatches, and again once it has stopped, it notes failures and nothing else. -/
lemma Leads.adds {s t : System σ} {moves} (hrun : s.Leads moves t)
    (hp : s.controller.phase = .running → t.controller.phase = .running) :
    ∃ latencies, Adds s.controller t.controller latencies := by
  induction hrun with
  | nil => exact ⟨[], .nothing rfl rfl⟩
  | snoc hrun hs ih =>
    -- a run that dispatches in between did so at the start, so no move of these stops it
    obtain ⟨before, hb⟩ := ih fun h => running_of_step hs (hp h)
    obtain ⟨after, ha⟩ := step_adds hs fun h => hp (by
      by_contra hstill
      exact (hrun.still hstill).not_running hstill h)
    exact ⟨before ++ after, hb.trans ha⟩

/-- The notes of a run that has stopped. -/
lemma Stops.notes {s u v t : System σ} {moves} (h : s.Stops moves u v t) :
    ∃ before cause after, t.controller.phase.cause? = some cause ∧
      t.controller.failures = s.controller.failures ++ (before ++ after) ∧
      t.controller.notes.toList = s.controller.notes.toList ++ before.map .operationFailed
        ++ .draining cause v.controller.inFlight.active t.controller.tally.sent :: after.map .operationFailed := by
  cases h with
  | @intro first rest now m u v t hfirst hu hm hv hrest =>
    obtain ⟨before, hb⟩ := hfirst.adds fun _ => hu
    obtain ⟨after, ha⟩ := hrest.adds fun hp => absurd hp hv
    obtain ⟨d, cause, hp, hnotes, hcompletions, hd⟩ := stop_inv hu hm hv
    have hstill := hrest.still hv
    have hstop : d.stop now cause = _ := stop_of_running hp
    -- the run stops with the note about it, and with no result more or less
    have hvnotes : v.controller.notes = u.controller.notes.push
        (.draining cause v.controller.inFlight.active t.controller.tally.sent) := by
      rw [hstill.sent, hd, ← hnotes, hstop]
      rfl
    have hvfailures : v.controller.failures = u.controller.failures := by
      rw [hd, hstop, Controller.failures, Controller.failures, ← hcompletions]
      rfl
    refine ⟨before, cause, after, ?_, ?_, ?_⟩
    · rw [hstill.cause, hd, settle_cause, hstop]
      rfl
    · rw [ha.failures, hvfailures, hb.failures, List.append_assoc]
    · rw [ha.notes, hvnotes, Array.toList_push, hb.notes]
      simp

lemma Stops.logged {plan : Plan} {source : σ} {started reporter deadline} {u v t : System σ} {moves}
    (h : (System.init (fresh plan source started reporter deadline)).Stops moves u v t)
    (hrun : (System.init (fresh plan source started reporter deadline)).Leads moves t) (now : Nat) :
    ∃ before after, (Course.of t.controller (.summed (t.controller.summary now)) #[t.controller.closingNote]).Logged
      plan (t.controller.summary now) v.controller.inFlight.active before after := by
  obtain ⟨before, cause, after, hcause, hfailures, hnotes⟩ := h.notes
  have hsum : t.controller.phase.cause?.getD .exhausted = cause := by rw [hcause]; rfl
  have hlog : (Course.of t.controller (.summed (t.controller.summary now)) #[t.controller.closingNote]).notes.toList
      = .started plan.rate plan.tick plan.targetRate :: before.map .operationFailed
        ++ .draining cause v.controller.inFlight.active t.controller.tally.sent :: after.map .operationFailed
        ++ [.terminated cause t.controller.tally.sent t.controller.tally.completed t.controller.tally.failed] := by
    simp only [Course.of, Array.toList_append, hnotes, closingNote, hsum]
    rfl
  refine ⟨before, after, ?_, ?_, ?_⟩
  · rw [hlog]
    simp only [summary, hsum, Tally.snapshot]
  · rw [hlog]
    simp only [List.map_append, List.map_cons, List.map_nil, messages_operationFailed]
    rfl
  · -- what is counted as failed is what was noted as such
    have hf := (hrun.counted .fresh).failed
    rw [← failures_length] at hf
    have h0 : (System.init (fresh plan source started reporter deadline)).controller.failures = [] := rfl
    rw [hfailures, h0, List.nil_append, List.length_append] at hf
    exact hf

/-- Once a run has stopped dispatching, whatever happens and in whatever order, nothing starts again: from the end of
the move in which it stopped on, nothing is drawn, dispatched or reported, the operations sent and the cause stay what
they were, and nothing but the results is polled; an interrupt or a deadline that came has stopped it. No operation can
be added exactly once it has stopped, and it has ended exactly once there is nothing left to wait for; nothing changes
it then. The log of a run that has ended tells that it began, failures, once that dispatch stopped, failures, and how
it ended; it tells as many failures as the summary counts, as far as a count of 64 bits goes. -/
theorem stopped_run_never_restarts {plan : Plan} {source : σ} {listening : Bool} {started : Nat} {c : Controller σ}
    (hstart : start? plan source listening started = some c)
    {moves : List (Nat × Move)} {s : System σ} (hrun : (System.init c).Leads moves s) :
    (s.controller.inFlight.closed = true ↔ s.controller.phase ≠ .running) ∧
    (s.controller.isTerminated = true ↔ s.controller.inFlight.isComplete = true) ∧
    (∀ i m, (i, m) ∈ moves → m = .interrupt ∨ m = .deadline ∧ c.deadline.isSome = true →
      s.controller.phase ≠ .running) ∧
    (s.controller.phase ≠ .running → ∃ u v, (System.init c).Stops moves u v s ∧
      (∃ (d : Controller σ) (now : Nat) (cause : StopCause), d.phase = .running ∧
        v.controller = (d.stop now cause).settle) ∧
      Still v.controller s.controller ∧
      (∀ ready, ∀ b ∈ s.controller.polled ready, b = .results) ∧
      (s.controller.isTerminated = true →
        (∀ now m t, s.step now m = .ok t → t.controller = s.controller) ∧
        ∀ now, ∃ before after,
          (Course.of s.controller (.summed (s.controller.summary now)) #[s.controller.closingNote]).Logged plan
            (s.controller.summary now) v.controller.inFlight.active before after)) := by
  obtain ⟨reporter, deadline, _, _, rfl⟩ := start?_inv hstart
  have ho := hrun.orderly Orderly.fresh
  refine ⟨ho.closed, ho.ended, fun i m hm hf => hrun.fired hm hf, fun hp => ?_⟩
  obtain ⟨u, v, hstops⟩ := hrun.stops rfl hp
  have hlog := hstops.logged hrun
  refine ⟨u, v, hstops, ?_, ?_, fun ready b hb => polled_of_stopped hp hb, fun ht => ⟨?_, hlog⟩⟩
  · cases hstops with
    | @intro _ _ now _ _ _ _ _ hu hm hv =>
      obtain ⟨d, cause, hd, _, _, hvd⟩ := stop_inv hu hm hv
      exact ⟨d, now, cause, hd, hvd⟩
  · cases hstops with
    | intro _ _ _ hv hrest => exact hrest.still hv
  · exact fun now m t hs => step_of_terminated hs ht

/-- A run of one operation, which is heard to have broken down after dispatch stopped. -/
theorem breakdown_after_stop_is_logged :
    ∃ (c : Controller KeyList) (s u v : System KeyList) (before after : List Duration),
      start? Plan.default (KeyList.ofArray #["a"]) true 0 = some c ∧
      (System.init c).Leads [(0, .tick), (5, .finish 0 (.brokeDown Duration.zero)), (6, .interrupt), (7, .receive)] s ∧
      (System.init c).Stops [(0, .tick), (5, .finish 0 (.brokeDown Duration.zero)), (6, .interrupt), (7, .receive)]
        u v s ∧
      (Course.of s.controller (.summed (s.controller.summary 7)) #[s.controller.closingNote]).Logged Plan.default
        (s.controller.summary 7) v.controller.inFlight.active before after ∧
      (s.controller.summary 7).cause = .exhausted ∧ (s.controller.summary 7).snapshot.failed = 1 := by
  obtain ⟨c, hstart, s, hleads, ht, hcause, hfailed⟩ : ∃ c : Controller KeyList,
      start? Plan.default (KeyList.ofArray #["a"]) true 0 = some c ∧ ∃ s, (System.init c).Leads
      ([] ++ [(0, .tick)] ++ [(5, .finish 0 (.brokeDown Duration.zero))] ++ [(6, .interrupt)] ++ [(7, .receive)]) s ∧
      s.controller.isTerminated = true ∧ (s.controller.summary 7).cause = .exhausted ∧
      (s.controller.summary 7).snapshot.failed = 1 := by
    refine ⟨_, rfl, _, .snoc (.snoc (.snoc (.snoc .nil rfl) rfl) rfl) rfl, ?_, ?_, ?_⟩ <;> rfl
  obtain ⟨_, _, hfired, hstopped⟩ := stopped_run_never_restarts hstart hleads
  have hp : s.controller.phase ≠ .running := hfired 6 .interrupt (by simp) (.inl rfl)
  obtain ⟨u, v, hstops, _, _, _, hended⟩ := hstopped hp
  obtain ⟨_, hlog⟩ := hended ht
  obtain ⟨before, after, hlog⟩ := hlog 7
  exact ⟨c, s, u, v, before, after, hstart, hleads, hstops, hlog, hcause, hfailed⟩

end System
end Cadence.Run
