import Cadence.Duration

/-!
# Snapshots

The figures of a run at one instant, as they are reported and summed up. Latencies are in milliseconds and absent
as long as nothing succeeded.
-/

namespace Cadence

/-- The figures of a run at one instant. The tick of a report is its number from one on; the tick of the closing
summary is the number of reports before it. -/
structure Snapshot where
  tick : Nat
  elapsed : Duration
  sent : Nat
  completed : Nat
  failed : Nat
  inFlight : Nat
  average : Option Float
  throughput : Float
  p50 : Option Float
  p90 : Option Float
  p99 : Option Float
  maximum : Option Float

end Cadence
