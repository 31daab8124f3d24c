import Cadence.Count
import Cadence.Lifecycle
import Cadence.Log
import Cadence.Outcome
import Cadence.Snapshot
import Cadence.Workload

/-!
# What happens in a run

The five kinds of events that a run reacts to, and the traces it leaves: operations dispatched, results taken in,
and notes for the log.
-/

namespace Cadence.Run

/-- What a run reacts to. A completion carries the number of the operation, from zero in order of dispatch. -/
inductive Event where
  | interrupt
  | completion (operation : Nat) (outcome : Outcome)
  | deadline
  | report
  | tick
deriving DecidableEq

/-- An operation that was dispatched, and the time that it was told it may take. -/
@[ext]
structure Call where
  instant : Nat
  item : Item
  timeout : Duration
deriving DecidableEq

/-- A result that was taken in. -/
structure Completion where
  instant : Nat
  operation : Nat
  outcome : Outcome
deriving DecidableEq

/-- What a run notes in the log. -/
inductive Note where
  | started (rate : Nat) (tick : Duration) (targetRate : Float)
  | draining (cause : StopCause) (inFlight sent : Nat)
  | operationFailed (latency : Duration)
  | terminated (cause : StopCause) (sent completed failed : Nat)

/-- The log record of a note. Milliseconds are shown in 64 bits. -/
def Note.record : Note → Log.Record
  | started rate tick targetRate =>
    ⟨.info, "run started", [("rate_per_tick", .count rate), ("tick_ms", .count (Count.wrap tick.millis)),
      ("target_rate_per_sec", .number targetRate)]⟩
  | draining cause inFlight sent =>
    ⟨.info, "dispatch stopped, draining", [("cause", .bare cause.text), ("in_flight", .count inFlight),
      ("requests_sent", .count sent)]⟩
  | operationFailed latency =>
    ⟨.debug, "operation failed", [("latency_ms", .count (Count.wrap latency.millis))]⟩
  | terminated cause sent completed failed =>
    ⟨.info, "run terminated", [("cause", .bare cause.text), ("requests_sent", .count sent),
      ("completed", .count completed), ("failed", .count failed)]⟩

/-- How a run ended: its closing figures, why it stopped, and the identifiers that its successes made, in the
order in which they were taken in. -/
structure Summary where
  snapshot : Snapshot
  cause : StopCause
  produced : List String
  reportsEmitted : Nat

end Cadence.Run
