import Cadence.Report.Header
import Cadence.Report.Line

/-!
# Summary of a run

* `humanSummary` shows no latencies, and says so, exactly if nothing succeeded.
-/

namespace Cadence.Report

/-- The latencies of a summary in one line. -/
def latencyLine (s : Snapshot) : String :=
  if s.average.isSome then
    "  latency = avg=" ++ latency s.average ++ " p50=" ++ latency s.p50 ++ " p90=" ++ latency s.p90
      ++ " p99=" ++ latency s.p99 ++ " max=" ++ latency s.maximum ++ "\n"
  else "  latency: n/a\n"

/-- Where the identifiers went, in one line, if they were written. -/
def persistedLine : Option Persisted → String
  | some p => "  identifiers: " ++ toString p.count ++ " written to " ++ p.path ++ "\n"
  | none => ""

/-- The summary for people. -/
def humanSummary (operation : Operation) (s : Run.Summary) (persisted : Option Persisted) : String :=
  "summary: " ++ operation.name ++ "\n"
    ++ "  stopped: " ++ s.cause.text ++ " after " ++ s.snapshot.elapsed.display
    ++ " (" ++ toString s.reportsEmitted ++ " reports)\n"
    ++ "  requests: " ++ toString s.snapshot.sent ++ " (completed " ++ toString s.snapshot.completed
    ++ ", failed " ++ toString s.snapshot.failed ++ ")\n"
    ++ latencyLine s.snapshot
    ++ "  throughput: " ++ rate s.snapshot.throughput ++ " ops/s\n"
    ++ persistedLine persisted

/-- What is printed after a run. -/
def summaryText (operation : Operation) (s : Run.Summary) (persisted : Option Persisted) : Format → String
  | .human => humanSummary operation s persisted
  | .json => line (summaryValue operation s persisted)

end Cadence.Report
