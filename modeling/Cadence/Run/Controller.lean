import Cadence.Batch
import Cadence.Config
import Cadence.Reporter
import Cadence.Run.Event

/-!
# The controller of a run

All state of a run is changed by one function from events to states, so every interleaving of interrupts, results,
deadlines, reports and ticks is a list of events.

* `Controller.accepts` says which events a run reacts to: results as long as it has not ended, all others as long
  as it dispatches.
* `Controller.step` is total; an event that is not accepted changes nothing.
* `Controller.feed` dispatches a whole batch; a batch that could not be drawn is not dispatched at all.
* `Controller.step_terminated`: a run that has ended stays as it is.
-/

namespace Cadence.Run

/-- The state of a run, and the trace of what it did; `stopped` is the instant at which dispatch stopped. -/
structure Controller (σ : Type) where
  plan : Plan
  started : Nat
  deadline : Option Nat
  source : σ
  ticker : Interval
  reporter : Reporter
  inFlight : InFlight
  phase : Phase
  stopped : Option Nat
  tally : Tally
  produced : Array String
  calls : Array Call
  reports : Array Snapshot
  completions : Array Completion
  notes : Array Note

namespace Controller

variable {σ : Type}

/-- The instant at which a run that began at `started` has gone on for long enough, if it has to stop then; `none`
if the clock does not go that far. -/
def deadline? (plan : Plan) (started : Nat) : Option (Option Nat) :=
  match plan.maxDuration with
  | none => some none
  | some d => (Clock.after? started d).map some

/-- A run in which nothing has happened. -/
def fresh (plan : Plan) (source : σ) (started : Nat) (reporter : Reporter) (deadline : Option Nat) :
    Controller σ where
  plan := plan
  started := started
  deadline := deadline
  source := source
  ticker := Interval.ofTicks plan.tick started
  reporter := reporter
  inFlight := InFlight.empty
  phase := .running
  stopped := none
  tally := Tally.empty
  produced := #[]
  calls := #[]
  reports := #[]
  completions := #[]
  notes := #[.started plan.rate plan.tick plan.toConfig.targetRate]

/-- A run that begins at `started`, unless its first report or its deadline is out of the clock's range. -/
def start? (plan : Plan) (source : σ) (hasListener : Bool) (started : Nat) : Option (Controller σ) :=
  match Reporter.create? plan.reportInterval started hasListener, deadline? plan started with
  | some reporter, some deadline => some (fresh plan source started reporter deadline)
  | _, _ => none

/-- Whether a run reacts to an event. -/
def accepts (c : Controller σ) : Event → Bool
  | .completion _ _ =>
    match c.phase with
    | .terminated _ => false
    | _ => true
  | .deadline => c.phase.isRunning && c.deadline.isSome
  | _ => c.phase.isRunning

/-- Stops dispatch at `now`, unless it has stopped before. -/
def stop (c : Controller σ) (now : Nat) (cause : StopCause) : Controller σ :=
  match c.phase.drain? cause c.inFlight with
  | none => c
  | some (phase, inFlight) =>
    { c with
      phase := phase
      inFlight := inFlight
      stopped := some now
      notes := c.notes.push (.draining cause inFlight.active c.tally.sent) }

/-- Records the result of an operation, with what is in flight without it. -/
def absorb (c : Controller σ) (now operation : Nat) (o : Outcome) (inFlight : InFlight) : Controller σ :=
  { c with
    inFlight := inFlight
    tally := c.tally.record o
    completions := c.completions.push ⟨now, operation, o⟩
    notes := if o.succeeded then c.notes else c.notes.push (.operationFailed o.latency)
    produced := match o.succeeded, o.produced with
      | true, some id => c.produced.push id
      | _, _ => c.produced }

/-- Takes in the result of an operation. -/
def complete (c : Controller σ) (now operation : Nat) (o : Outcome) : Except Fault (Controller σ) :=
  c.inFlight.complete.map (c.absorb now operation o)

/-- Takes a report. -/
def report (c : Controller σ) (now : Nat) : Controller σ :=
  let (snapshot, reporter) := c.reporter.emit c.tally c.started now c.inFlight.active
  { c with
    reporter := { reporter with timer := reporter.timer.fire now }
    reports := c.reports.push snapshot }

/-- Dispatches one item. -/
def dispatch (now : Nat) (c : Controller σ) (item : Item) : Controller σ :=
  { c with
    inFlight := c.inFlight.dispatch
    tally := c.tally.dispatch
    calls := c.calls.push ⟨now, item, c.plan.timeout⟩ }

/-- Dispatches a batch that left the source as `source`. -/
def feed (c : Controller σ) (now : Nat) (batch : Array Item) (source : σ) : Controller σ :=
  batch.foldl (dispatch now) { c with source := source, ticker := c.ticker.fire now }

/-- Draws a batch and dispatches it; a source that has nothing left stops the run. -/
def tick [Source σ] (c : Controller σ) (now : Nat) : Except Fault (Controller σ) :=
  match Batch.draw c.plan.rate c.source with
  | (.error f, _) => .error f
  | (.ok batch, source) =>
    .ok (if Source.isExhausted source then (c.feed now batch source).stop now .exhausted
      else c.feed now batch source)

/-- Ends the run if it drains and nothing is in flight any more. -/
def settle (c : Controller σ) : Controller σ :=
  { c with phase := (c.phase.terminate? c.inFlight).getD c.phase }

/-- What an accepted event does. -/
def react [Source σ] (c : Controller σ) (now : Nat) : Event → Except Fault (Controller σ)
  | .interrupt => .ok (c.stop now .interrupted)
  | .completion operation o => c.complete now operation o
  | .deadline => .ok (c.stop now .deadlineReached)
  | .report => .ok (c.report now)
  | .tick => c.tick now

/-- The run after an event at `now`. -/
def step [Source σ] (c : Controller σ) (now : Nat) (e : Event) : Except Fault (Controller σ) :=
  if c.accepts e then (c.react now e).map settle else .ok c

/-- Whether the run has ended. -/
def isTerminated (c : Controller σ) : Bool :=
  match c.phase with
  | .terminated _ => true
  | _ => false

/-- The summary of a run that has ended at `now`. -/
def summary (c : Controller σ) (now : Nat) : Summary where
  snapshot := c.tally.snapshot c.started now c.inFlight.active c.reporter.emitted
  cause := c.phase.cause?.getD .exhausted
  produced := c.produced.toList
  reportsEmitted := c.reporter.emitted

/-- The note that closes the log of a run. -/
def closingNote (c : Controller σ) : Note :=
  .terminated (c.phase.cause?.getD .exhausted) c.tally.sent c.tally.completed c.tally.failed

theorem step_terminated [Source σ] {c : Controller σ} (h : c.isTerminated = true) (now : Nat) (e : Event) :
    c.step now e = .ok c := by
  have ha : c.accepts e = false := by
    unfold isTerminated at h
    split at h
    · next hp => cases e <;> simp [accepts, hp, Phase.isRunning]
    · cases h
  simp [step, ha]

end Controller
end Cadence.Run
