import Cadence.Proofs.Run.Conservation
import Cadence.Proofs.Simulation.Course

/-!
# Runs drain

Every run on the virtual clock that has to stop some time ends with a summary that its operations determine
(`bounded_run_drains`): each of them finishes once, with its own outcome when it is over, or as a failure when the
time allowed is; the summary counts and lists what they brought. As long as no deadline is out of the clock's range,
when an operation finishes is a plain sum, rounded up to a millisecond (`Behaviour.fate`).
-/

namespace Cadence.Run

/-- The instant at which something that begins at `start` and takes `length` is over: at once if there is no time in
it, else at the first millisecond that is not before the end. -/
def overAt (start : Nat) (length : Duration) : Nat :=
  if length.nanos = 0 then start else Clock.ceilMs (start + length.nanos)

/-- When an operation that begins at `start` is over by itself, and with what; nothing if it never is. -/
def Behaviour.own? (start : Nat) : Behaviour → Option (Nat × Outcome)
  | .finishes length o => some (overAt start length, o)
  | .breaks length => some (overAt start length, .failure (Clock.since (overAt start length) start))
  | .hangs => none

/-- How long an operation takes by itself, if it ever ends. -/
def Behaviour.length? : Behaviour → Option Duration
  | .finishes length _ => some length
  | .breaks length => some length
  | .hangs => none

/-- When an operation that begins at `start` and may take `timeout` finishes, and how: with its own outcome when it is
over if that is in time, as a failure when the time allowed is over otherwise. -/
def Behaviour.fate (b : Behaviour) (start : Nat) (timeout : Duration) : Nat × Outcome :=
  let cut := Clock.ceilMs (start + timeout.nanos)
  match b.own? start with
  | some (own, o) => if own ≤ cut then (own, o) else (cut, .failure (Clock.since cut start))
  | none => (cut, .failure (Clock.since cut start))

/-- No deadline of an operation that begins at `start` is out of the clock's range. -/
structure Behaviour.InRange (b : Behaviour) (start : Nat) (timeout : Duration) : Prop where
  timeout : start + timeout.nanos < Clock.limit
  own : ∀ length, b.length? = some length → start + length.nanos < Clock.limit

/-- Within the clock's range something is over after a plain sum. -/
lemma endOf_eq {start : Nat} {length : Duration} (h : start + length.nanos < Clock.limit) :
    endOf start length = overAt start length := by
  unfold endOf overAt
  rw [Clock.after_eq h]
  by_cases hz : length.nanos = 0
  · rw [if_pos (Duration.isZero_iff.mpr hz), if_pos hz]
  · rw [if_neg fun h => hz (Duration.isZero_iff.mp h), if_neg hz]

/-- Within the clock's range an operation delivers its fate. -/
lemma Behaviour.delivery_eq {b : Behaviour} {start : Nat} {timeout : Duration} (h : b.InRange start timeout) :
    b.delivery start timeout = b.fate start timeout := by
  unfold delivery fate
  rw [Clock.after_eq h.timeout]
  cases b with
  | finishes length o =>
    simp only [own?, endOf_eq (h.own length rfl)]
  | breaks length =>
    simp only [own?, endOf_eq (h.own length rfl)]
  | hangs => rfl

open Controller Simulation

/-- The fate of an operation of a course that may take `timeout`; nothing if there is no such operation. -/
def Course.fate? (course : Course) (env : Environment) (timeout : Duration) (operation : Nat) :
    Option (Nat × Outcome) :=
  course.calls[operation]?.map fun call => (env.behaviour operation call.item).fate call.instant timeout

/-- Whether an operation of a course succeeds. -/
def Course.succeeds (course : Course) (env : Environment) (timeout : Duration) (operation : Nat) : Bool :=
  ((course.fate? env timeout operation).map fun fate => fate.2.succeeded).getD false

/-- How a course comes out that drained: nothing is in flight, every operation had its result taken in once, when and
as its fate says, in the order of these instants; the successes are counted and their identifiers listed in that
order; and the run is over when the last of this is and dispatch has stopped. -/
structure Course.Drained (course : Course) (env : Environment) (timeout : Duration) (summary : Summary) : Prop where
  inFlight : summary.snapshot.inFlight = 0
  sent : summary.snapshot.sent = course.calls.size
  balance : summary.snapshot.sent = summary.snapshot.completed + summary.snapshot.failed
  once : (course.completions.toList.map Completion.operation).Perm (List.range course.calls.size)
  fates : ∀ k ∈ course.completions, course.fate? env timeout k.operation = some (k.instant, k.outcome)
  sorted : course.completions.toList.Pairwise (·.instant ≤ ·.instant)
  completed : summary.snapshot.completed = (List.range course.calls.size).countP (course.succeeds env timeout)
  produced : summary.produced = course.completions.toList.filterMap Completion.made?
  elapsed : ∃ stop last, course.stopped = some stop ∧
    (stop :: course.completions.toList.map Completion.instant).max? = some last ∧
    summary.snapshot.elapsed = Clock.since last 0

variable {σ : Type} [Source σ] {env : Environment}

/-- Every call of a run is told how long it may take. -/
lemma call_timeout {plan : Plan} {deadline : Option Nat} {source : σ} {k i : Nat} {c : Controller σ} {call}
    (h : Fed env plan deadline source k c) (hc : c.calls[i]? = some call) : call.timeout = plan.timeout := by
  rw [h.calls_eq i (Array.getElem?_eq_some_iff.mp hc).1] at hc
  obtain ⟨item, _, rfl⟩ := Option.map_eq_some_iff.mp hc
  rfl

/-- A result that was taken in was so when and as the fate of its operation says. -/
lemma fate_of_taken {plan : Plan} {deadline : Option Nat} {source : σ} {n k : Nat} {s : Simulation σ} {ending notes}
    (h : Sound env plan deadline source n k s)
    (hclock : ∀ (i : Nat) call, s.controller.calls[i]? = some call →
      (env.behaviour i call.item).InRange call.instant plan.timeout)
    {x : Completion} (hx : x ∈ s.controller.completions) :
    (Course.of s.controller ending notes).fate? env plan.timeout x.operation = some (x.instant, x.outcome) := by
  obtain ⟨call, hcall, hb⟩ := h.delivered.taken x hx
  rw [call_timeout h.paced.toFed hcall, Behaviour.delivery_eq (hclock _ call hcall)] at hb
  show s.controller.calls[x.operation]?.map _ = _
  rw [hcall, Option.map_some, hb]

/-- A run has ended at the last of the instants at which it stopped dispatching and took in its results. -/
lemma last_of_ended {plan : Plan} {deadline : Option Nat} {source : σ} {n k : Nat} {s : Simulation σ}
    (h : Sound env plan deadline source n k s) (ht : s.controller.isTerminated = true) :
    ∃ stop, s.controller.stopped = some stop ∧
      (stop :: s.controller.completions.toList.map Completion.instant).max? = some s.now := by
  have hp : s.controller.phase ≠ .running := by
    obtain ⟨cause, hc⟩ := isTerminated_iff.mp ht
    simp [hc]
  obtain ⟨stop, hstop⟩ := Option.isSome_iff_exists.mp (h.orderly.stopped.mpr hp)
  refine ⟨stop, hstop, List.max?_eq_some_iff.mpr ⟨?_, ?_⟩⟩
  -- the clock did not go on after the run stopped or took in its last result, whichever ended it
  · obtain hs | ⟨x, hx, hnow⟩ := h.delivered.ended ht
    · obtain rfl := Option.some.inj (hstop.symm.trans hs)
      exact List.mem_cons_self
    · exact List.mem_cons_of_mem _ (List.mem_map.mpr ⟨x, Array.mem_toList_iff.mpr hx, hnow⟩)
  · intro t hmem
    obtain rfl | hmem := List.mem_cons.mp hmem
    · exact h.delivered.stopped t hstop
    · obtain ⟨x, hx, rfl⟩ := List.mem_map.mp hmem
      exact h.delivered.past x (Array.mem_toList_iff.mp hx)

/-- The trace of a run that has ended after everything was delivered. -/
lemma drained_of_ended {plan : Plan} {deadline : Option Nat} {source : σ} {n k : Nat} {s : Simulation σ}
    {ending notes} (h : Sound env plan deadline source n k s) (hl : System.Ledger s.system)
    (ht : s.controller.isTerminated = true) (h0 : s.controller.started = 0)
    (hclock : ∀ (i : Nat) call, s.controller.calls[i]? = some call →
      (env.behaviour i call.item).InRange call.instant plan.timeout) :
    (Course.of s.controller ending notes).Drained env plan.timeout (s.controller.summary s.now) := by
  have hzero : s.controller.inFlight.active = 0 := h.orderly.active_of_terminated ht
  have honce : (s.controller.completions.toList.map Completion.operation).Perm
      (List.range s.controller.calls.size) := hl.placed.completions_of_terminated h.orderly ht
  refine ⟨hzero, hl.sent, ?_, honce, fun x hx => fate_of_taken h hclock hx, h.delivered.sorted, ?_,
    h.delivered.produced, ?_⟩
  · have hb : s.controller.tally.sent
        = s.controller.tally.completed + s.controller.tally.failed + s.controller.inFlight.active := hl.balance
    show s.controller.tally.sent = s.controller.tally.completed + s.controller.tally.failed
    omega
  · have hcount : s.controller.tally.completed
        = s.controller.completions.toList.countP (·.outcome.succeeded) := hl.completed
    show s.controller.tally.completed = (List.range s.controller.calls.size).countP _
    -- the operations are those of the results taken in, in another order
    rw [hcount, ← honce.countP_eq, List.countP_map]
    apply List.countP_congr
    intro x hx
    rw [Function.comp, Course.succeeds, fate_of_taken h hclock (Array.mem_toList_iff.mp hx)]
    rfl
  · obtain ⟨stop, hstop, hlast⟩ := last_of_ended h ht
    refine ⟨stop, s.now, hstop, hlast, ?_⟩
    show Clock.since s.now s.controller.started = Clock.since s.now 0
    rw [h0]

/-- A run on the virtual clock whose source is honest, and which has to stop some time because its items come to an
end, at its deadline or when it is interrupted, ends with a summary and has drained, as long as it dispatches fewer
than `2 ^ 64` operations and no deadline is out of the clock's range. -/
theorem bounded_run_drains {config : Config} {source : σ} {listening : Bool} {course : Course}
    (hvalid : config.Valid) (honest : Source.Honest source)
    (hbounded : (Source.remaining source).count?.isSome = true ∨ config.maxDuration.isSome = true ∨
      env.interrupt.isSome = true)
    (hreport : config.reportInterval.nanos < Clock.limit)
    (hmax : ∀ d, config.maxDuration = some d → d.nanos < Clock.limit)
    (hcourse : simulate config source (Source.remaining source).count? listening env = course)
    (hfew : course.calls.size ≤ Count.top)
    (hclock : ∀ (i : Nat) call, course.calls[i]? = some call →
      (env.behaviour i call.item).InRange call.instant config.timeout) :
    ∃ summary, course.ending = .summed summary ∧ course.Drained env config.timeout summary := by
  subst hcourse
  obtain ⟨deadline, n, k, s, _, hs, hl, ht, h0, hcourse⟩ :=
    simulate_ends hvalid honest hbounded hreport hmax hfew
  rw [hcourse] at hclock ⊢
  exact ⟨_, rfl, drained_of_ended hs hl ht h0 hclock⟩

/-- Surroundings in which the first operation makes `x` after a second and a half, and all others hang. -/
def oneHangs : Environment where
  interrupt := none
  behaviour i _ := if i = 0 then .finishes (Duration.ofMillis 1500) (.made (Duration.ofMillis 1500) "x") else .hangs

/-- A run of two operations drains when the second one, which hangs, was cut off. -/
theorem run_with_one_hanging_drains :
    ∃ course summary, simulate Config.default (KeyList.ofArray #["a", "b"]) (some 2) true oneHangs = course ∧
      course.ending = .summed summary ∧ course.Drained oneHangs (Duration.ofSeconds 10) summary ∧
      summary.produced = ["x"] := by
  obtain ⟨course, hcourse⟩ : ∃ course,
      simulate Config.default (KeyList.ofArray #["a", "b"]) (some 2) true oneHangs = course := ⟨_, rfl⟩
  have hcalls : course.calls
      = #[⟨0, .key "a", Duration.ofSeconds 10⟩, ⟨1000000000, .key "b", Duration.ofSeconds 10⟩] := by
    rw [← hcourse]
    decide +kernel
  have hmade : course.completions.toList.filterMap Completion.made? = ["x"] := by
    rw [← hcourse]
    decide +kernel
  have hfew : course.calls.size ≤ Count.top := by
    rw [hcalls]
    decide
  have hclock : ∀ (i : Nat) call, course.calls[i]? = some call →
      (oneHangs.behaviour i call.item).InRange call.instant (Duration.ofSeconds 10) := by
    intro i call hcall
    rw [hcalls] at hcall
    match i, hcall with
    | 0, rfl => exact ⟨by decide, fun d hd => by cases hd; decide⟩
    | 1, rfl => exact ⟨by decide, nofun⟩
  obtain ⟨summary, hend, hdrained⟩ := bounded_run_drains Config.default_valid
    (KeyList.honest (KeyList.ofArray #["a", "b"])) (.inl rfl) (by decide) nofun hcourse hfew hclock
  exact ⟨course, summary, hcourse, hend, hdrained, hdrained.produced.trans hmade⟩

end Cadence.Run
