import Cadence.Decimal.Shortest
import Cadence.Json.Value
import Cadence.Operation
import Cadence.Run.Event

/-!
# Lines for machines

Progress and summary as one JSON object a line, with the fields in a fixed order.
-/

namespace Cadence.Report

open Json (Value)

/-- Where the identifiers of a run were written, and how many. -/
structure Persisted where
  path : String
  count : Nat
deriving DecidableEq

/-- Numbers are positional from five zeros after the point to sixteen digits before it. -/
def numberLayout : Decimal.Layout := ⟨-5, 15, true⟩

/-- A number; what is not finite is null. -/
def numberValue (x : Float) : Value :=
  match Decimal.shortest? numberLayout x with
  | some literal => .number literal
  | none => .null

/-- A number that may be absent. -/
def optionalNumber : Option Float → Value
  | some x => numberValue x
  | none => .null

/-- The version of the line format. -/
def schema : String := "cidbench.ndjson.v1"

/-- The fields that every line starts with. -/
def lineFields (kind : String) (operation : Operation) : List (String × Value) :=
  [("schema", .text schema), ("kind", .text kind), ("operation", .text operation.name)]

/-- The fields of a snapshot. -/
def snapshotFields (s : Snapshot) : List (String × Value) :=
  [("tick", .count s.tick), ("elapsedMs", .count (Count.cap s.elapsed.millis)),
    ("requestsSent", .count s.sent), ("completed", .count s.completed), ("failed", .count s.failed),
    ("inFlight", .count s.inFlight), ("averageLatencyMs", optionalNumber s.average),
    ("throughputPerSec", numberValue s.throughput), ("latencyP50Ms", optionalNumber s.p50),
    ("latencyP90Ms", optionalNumber s.p90), ("latencyP99Ms", optionalNumber s.p99),
    ("latencyMaxMs", optionalNumber s.maximum)]

/-- A report as a JSON object. -/
def progressValue (operation : Operation) (s : Snapshot) : Value :=
  .record (lineFields "progress" operation ++ snapshotFields s)

/-- What was persisted as a JSON value. -/
def persistedValue : Option Persisted → Value
  | some p => .record [("path", .text p.path), ("count", .count p.count)]
  | none => .null

/-- A summary as a JSON object. -/
def summaryValue (operation : Operation) (s : Run.Summary) (persisted : Option Persisted) : Value :=
  .record (lineFields "summary" operation
    ++ [("stopCause", .text s.cause.text), ("reportsEmitted", .count s.reportsEmitted)]
    ++ snapshotFields s.snapshot ++ [("identifiers", persistedValue persisted)])

/-- A value on a line of its own. -/
def line (v : Value) : String := v.compact ++ "\n"

end Cadence.Report
