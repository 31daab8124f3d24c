import Cadence.Clock
import Cadence.Latency.Histogram
import Cadence.Outcome
import Cadence.Snapshot

/-!
# Tally of a run

Counts what was dispatched and how it ended, and gathers the latencies of the successes. Failed operations count
as failed and leave no other trace.

* `Tally.record_failure`: a failure changes the count of failures only.
* `Tally.average_eq_none_iff`: there is an average exactly if something succeeded.
-/

namespace Cadence

open Latency

/-- Counts and latencies of a run so far. -/
structure Tally where
  sent : Nat
  completed : Nat
  failed : Nat
  totalLatency : Duration
  latencies : Histogram
deriving DecidableEq

namespace Tally

/-- Nothing dispatched yet. -/
def empty : Tally := ⟨0, 0, 0, Duration.zero, Histogram.empty⟩

/-- One more operation dispatched. -/
def dispatch (t : Tally) : Tally := { t with sent := Count.next t.sent }

/-- One more operation ended. -/
def record (t : Tally) (o : Outcome) : Tally :=
  if o.succeeded then
    { t with
      completed := Count.next t.completed
      totalLatency := t.totalLatency + o.latency
      latencies := t.latencies.record (valueOf o.latency) }
  else { t with failed := Count.next t.failed }

/-- The mean latency of the successes, in whole nanoseconds. -/
def average (t : Tally) : Option Duration :=
  if t.completed = 0 then none
  else some (Duration.clamp (Count.cap (t.totalLatency.nanos / t.completed)))

/-- Successes per second over the given time, which counts as a nanosecond at least. -/
def throughput (t : Tally) (elapsed : Duration) : Float :=
  let seconds := elapsed.toSeconds
  Count.toFloat t.completed / (if seconds < 1e-9 then 1e-9 else seconds)

/-- The latency of the successes at a quantile between zero and one. -/
def percentile (t : Tally) (q : Float) : Option Duration :=
  if t.latencies.isEmpty then none else some (Duration.ofMicros (t.latencies.quantile q))

/-- The largest latency of the successes. -/
def maximum (t : Tally) : Option Duration :=
  if t.latencies.isEmpty then none else some (Duration.ofMicros t.latencies.maximum)

/-- The figures at `now` of a run that began at `started`. -/
def snapshot (t : Tally) (started now : Nat) (inFlight tick : Nat) : Snapshot where
  tick := tick
  elapsed := Clock.since now started
  sent := t.sent
  completed := t.completed
  failed := t.failed
  inFlight := inFlight
  average := t.average.map Duration.toMillis
  throughput := t.throughput (Clock.since now started)
  p50 := (t.percentile 0.50).map Duration.toMillis
  p90 := (t.percentile 0.90).map Duration.toMillis
  p99 := (t.percentile 0.99).map Duration.toMillis
  maximum := t.maximum.map Duration.toMillis

theorem record_failure {t : Tally} {o : Outcome} (h : o.succeeded = false) :
    t.record o = { t with failed := Count.next t.failed } := by
  simp [record, h]

theorem average_eq_none_iff (t : Tally) : t.average = none ↔ t.completed = 0 := by
  unfold average
  split <;> simp_all

end Tally
end Cadence
