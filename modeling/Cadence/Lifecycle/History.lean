import Cadence.Lifecycle

/-!
# Histories of requests

The two machines of a run side by side, driven by requests in any order.

* `Lifecycle.perform` is total; a request that is refused changes nothing.
* `Lifecycle.transcript` is what was asked of two fresh machines, each request with its answer.
-/

namespace Cadence

/-- What is in flight, and how far the run is. -/
structure Lifecycle where
  inFlight : InFlight
  phase : Phase
deriving DecidableEq

namespace Lifecycle

/-- What can be asked of the machines. -/
inductive Request where
  | dispatched
  | completed
  | close
  | drain (cause : StopCause)
  | terminate
deriving DecidableEq

/-- What is said to a request. -/
inductive Answer where
  | done
  | told (yes : Bool)
  | refused (fault : Fault)
deriving DecidableEq

/-- Nothing in flight, and running. -/
def fresh : Lifecycle := ⟨.empty, .running⟩

/-- The machines after a request, and what they say to it. -/
def perform (l : Lifecycle) : Request → Lifecycle × Answer
  | .dispatched => ({ l with inFlight := l.inFlight.dispatch }, .done)
  | .completed =>
    match l.inFlight.complete with
    | .ok f => ({ l with inFlight := f }, .done)
    | .error f => (l, .refused f)
  | .close => ({ l with inFlight := l.inFlight.close }, .done)
  | .drain cause =>
    match l.phase.drain? cause l.inFlight with
    | some (phase, inFlight) => (⟨inFlight, phase⟩, .told true)
    | none => (l, .told false)
  | .terminate =>
    match l.phase.terminate? l.inFlight with
    | some phase => ({ l with phase := phase }, .told true)
    | none => (l, .told false)

/-- One more request, with its answer at the end of what was said so far. -/
def continued (l : Lifecycle × List (Request × Answer)) (r : Request) : Lifecycle × List (Request × Answer) :=
  ((l.1.perform r).1, l.2 ++ [(r, (l.1.perform r).2)])

/-- Fresh machines after a history of requests, and what was said. -/
def run (rs : List Request) : Lifecycle × List (Request × Answer) := rs.foldl continued (fresh, [])

/-- Fresh machines after a history of requests. -/
def after (rs : List Request) : Lifecycle := (run rs).1

/-- The requests of a history with their answers. -/
def transcript (rs : List Request) : List (Request × Answer) := (run rs).2

/-- What is said to a request that comes after a history. -/
def answer (rs : List Request) (r : Request) : Answer := ((after rs).perform r).2

end Lifecycle
end Cadence
