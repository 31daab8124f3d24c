import Cadence.Run.Controller

/-!
# Runs on a virtual clock

The whole course of a run when the clock stands still while work is done and jumps to the next timer when there
is none. What an operation does is given by a behaviour: it ends after some time, it breaks down, or it hangs; an
operation that takes longer than the time allowed is cut off and counts as failed.

At one instant the run reacts, as long as anything is left: to the interrupt, to results, to its deadline, to
reports, to ticks, in this order of precedence. Then the operations dispatched meanwhile begin, and those that are
due deliver their results.

* `Simulation.advance` is one small step.
* `Simulation.run` iterates it; `Simulation.budget` bounds the number of steps of a run that can end.
* `simulate` is the course of a whole run, `beginning` that of a run up to where one of its operations is about to begin.
-/

namespace Cadence.Run

/-- What an operation does once it has begun. -/
inductive Behaviour where
  | finishes (after : Duration) (outcome : Outcome)
  | breaks (after : Duration)
  | hangs

/-- An operation that has begun, the instant at which it delivers, and what. -/
structure Pending where
  operation : Nat
  due : Nat
  outcome : Outcome

/-- The instant at which something that begins at `start` and takes `length` is over. -/
def endOf (start : Nat) (length : Duration) : Nat :=
  if length.isZero then start else Clock.ceilMs (Clock.after start length)

/-- When an operation that begins at `start` delivers, and what, if it may take `timeout`. -/
def Behaviour.delivery (b : Behaviour) (start : Nat) (timeout : Duration) : Nat × Outcome :=
  let cut := Clock.ceilMs (Clock.after start timeout)
  let late := (cut, Outcome.failure (Clock.since cut start))
  match b with
  | .finishes after o => if endOf start after ≤ cut then (endOf start after, o) else late
  | .breaks after =>
    if endOf start after ≤ cut then
      (endOf start after, Outcome.failure (Clock.since (endOf start after) start))
    else late
  | .hangs => late

/-- The surroundings of a run: when it is interrupted, and what its operations do, by number and item. -/
structure Environment where
  interrupt : Option Nat
  behaviour : Nat → Item → Behaviour

/-- A run on the virtual clock: the controller, the instant, the number of operations that have begun, those that
are still busy, and the results that wait to be taken in. -/
structure Simulation (σ : Type) where
  controller : Controller σ
  now : Nat
  begun : Nat
  busy : List Pending
  ready : List Pending

/-- What one small step comes to. -/
inductive Progress (σ : Type) where
  | continues (s : Simulation σ)
  | faulted (s : Simulation σ) (fault : Fault)
  | ended (s : Simulation σ)
  | stalled (s : Simulation σ)

namespace Simulation

variable {σ : Type}

/-- A run at its start. -/
def init (c : Controller σ) : Simulation σ := ⟨c, c.started, 0, [], []⟩

/-- Whether a timer fires. -/
def reached (now : Nat) (deadline : Option Nat) : Bool :=
  match deadline with
  | some d => Clock.ceilMs d ≤ now
  | none => false

/-- The event that the run reacts to next, if there is one. -/
def nextEvent (env : Environment) (s : Simulation σ) : Option Event :=
  let running := s.controller.phase.isRunning
  if running && reached s.now env.interrupt then some .interrupt
  else match s.ready with
    | p :: _ => some (.completion p.operation p.outcome)
    | [] =>
      if running && reached s.now s.controller.deadline then some .deadline
      else if running && s.controller.reporter.timer.isDue s.now then some .report
      else if running && s.controller.ticker.isDue s.now then some .tick
      else none

/-- The operation `i`, dispatched as `call`, as it begins now. -/
def start (env : Environment) (now i : Nat) (call : Call) : Pending :=
  let (due, outcome) := (env.behaviour i call.item).delivery now call.timeout
  ⟨i, due, outcome⟩

/-- The operations that were dispatched and have not begun, as they begin now. -/
def beginning (env : Environment) (s : Simulation σ) : List Pending :=
  (List.range' s.begun (s.controller.calls.size - s.begun)).filterMap fun i =>
    s.controller.calls[i]?.map (start env s.now i)

/-- Begins what was dispatched and delivers what is due. -/
def deliver (env : Environment) (s : Simulation σ) : Simulation σ :=
  let busy := s.busy ++ s.beginning env
  { s with
    begun := s.controller.calls.size
    busy := busy.filter fun p => s.now < p.due
    ready := s.ready ++ busy.filter fun p => p.due ≤ s.now }

/-- Whether an operation has to begin or to deliver. -/
def hasDeliveries (s : Simulation σ) : Bool :=
  s.begun < s.controller.calls.size || s.busy.any fun p => p.due ≤ s.now

/-- The timers that are set. -/
def timers (env : Environment) (s : Simulation σ) : List Nat :=
  let waits := s.busy.map Pending.due
  if s.controller.phase.isRunning then
    (env.interrupt.toList ++ s.controller.deadline.toList
      ++ [s.controller.reporter.timer.deadline, s.controller.ticker.deadline]).map Clock.ceilMs ++ waits
  else waits

/-- One small step of a run. -/
def advance [Source σ] (env : Environment) (s : Simulation σ) : Progress σ :=
  if s.controller.isTerminated then .ended s
  else match s.nextEvent env with
    | some e =>
      match s.controller.step s.now e with
      | .error f => .faulted s f
      | .ok c =>
        .continues { s with
          controller := c
          ready := match e with
            | .completion _ _ => s.ready.tail
            | _ => s.ready }
    | none =>
      if s.hasDeliveries then .continues (s.deliver env)
      else match (s.timers env).min? with
        | some t => .continues { s with now := max s.now t }
        | none => .stalled s

/-- At most `fuel` small steps. -/
def run [Source σ] (env : Environment) (s : Simulation σ) : Nat → Progress σ
  | 0 => .continues s
  | fuel + 1 =>
    match s.advance env with
    | .continues s => run env s fuel
    | p => p

/-- At most `fuel` small steps, up to the state in which the operation `i` is about to begin. -/
def reach [Source σ] (env : Environment) (i : Nat) (s : Simulation σ) : Nat → Simulation σ
  | 0 => s
  | fuel + 1 =>
    if i < s.controller.calls.size && (s.nextEvent env).isNone then s
    else match s.advance env with
      | .continues t => reach env i t fuel
      | _ => s

/-- The latest instant at which dispatch stops, if there is one: a run that starts at zero stops when it is
interrupted, at its deadline, or when a source that yields at most `supply` items has nothing left. -/
def horizon (env : Environment) (plan : Plan) (supply : Option Nat) : Option Nat :=
  (env.interrupt.toList ++ (plan.maxDuration.map Duration.nanos).toList
    ++ (supply.map fun n => n * max plan.tick.nanos Clock.far).toList).min?.map (· + 1000000)

/-- A number of small steps that suffices for a run that stops dispatching by `stop`. -/
def budget (plan : Plan) (stop : Nat) : Nat :=
  let ticks := stop / min plan.tick.nanos Clock.far + 1
  let reports := stop / min plan.reportInterval.nanos Clock.far
  4 * (ticks + reports + ticks * plan.rate) + 4

end Simulation

/-- How a run came out. -/
inductive Ending where
  | summed (summary : Summary)
  | refused (fault : Fault)
  | clockOverflow
  | endless

/-- A run and the trace that it left; `stopped` is the instant at which it stopped dispatching. -/
structure Course where
  ending : Ending
  stopped : Option Nat
  calls : Array Call
  reports : Array Snapshot
  completions : Array Completion
  notes : Array Note

/-- A run that never began. -/
def Course.unstarted (ending : Ending) : Course := ⟨ending, none, #[], #[], #[], #[]⟩

/-- The trace of a controller, with how the run came out and the notes that close it. Only the reports that
somebody heard belong to it. -/
def Course.of {σ : Type} (c : Controller σ) (ending : Ending) (closing : Array Note) : Course :=
  ⟨ending, c.stopped, c.calls, c.reports.filter fun _ => c.reporter.hasListener, c.completions, c.notes ++ closing⟩

/-- The course of a run that came to `p`. -/
def Progress.course {σ : Type} : Progress σ → Course
  | ended s => .of s.controller (.summed (s.controller.summary s.now)) #[s.controller.closingNote]
  | faulted s f => .of s.controller (.refused f) #[]
  | continues s | stalled s => .of s.controller .endless #[]

/-- Runs a source that yields at most `supply` items, from the instant zero. -/
def simulate {σ : Type} [Source σ] (config : Config) (source : σ) (supply : Option Nat) (hasListener : Bool)
    (env : Environment) : Course :=
  match config.plan with
  | .error f => .unstarted (.refused f)
  | .ok plan =>
    match Controller.start? plan source hasListener 0 with
    | none => .unstarted .clockOverflow
    | some c =>
      match Simulation.horizon env plan supply with
      | none => .unstarted .endless
      | some stop => ((Simulation.init c).run env (Simulation.budget plan stop)).course

/-- The course of the same run, up to the state in which its operation `i` is about to begin, if it gets there. -/
def beginning {σ : Type} [Source σ] (config : Config) (source : σ) (hasListener : Bool) (env : Environment) (i : Nat) :
    Course :=
  match config.plan with
  | .error f => .unstarted (.refused f)
  | .ok plan =>
    match Controller.start? plan source hasListener 0, Simulation.horizon env plan (some (i + 1)) with
    | some c, some stop =>
      .of ((Simulation.init c).reach env i (Simulation.budget plan stop)).controller .endless #[]
    | none, _ => .unstarted .clockOverflow
    | _, none => .unstarted .endless

end Cadence.Run
