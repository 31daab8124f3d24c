import Cadence.Report.Header
import Cadence.Report.Line

/-!
# Progress of a run

People see a status line, with a bar if the run has a largest duration; machines get a line for every report.
-/

namespace Cadence.Report

/-- A status line: what stands in front of the figures, and the figures. -/
structure Status where
  head : String
  message : String
deriving DecidableEq

/-- The cells of a full bar. -/
def barWidth : Nat := 20

/-- The part of the run that is over, in single precision; a run of no length is over at once. -/
def doneFraction (position length : Nat) : Float32 :=
  if length = 0 then 1.0
  else if position = 0 then 0.0
  else
    let f := position.toUInt64.toFloat32 / length.toUInt64.toFloat32
    if f < 0.0 then 0.0 else if 1.0 < f then 1.0 else f

/-- The bar of a run that has gone on for `elapsed` out of `total`. -/
def bar (elapsed total : Duration) : String :=
  let length := Count.wrap total.millis
  let f := doneFraction (min (Count.wrap elapsed.millis) length) length
  let filled := (f * barWidth.toUInt64.toFloat32).toUInt64.toNat
  "[ " ++ String.ofList (List.replicate filled '█' ++ List.replicate (barWidth - filled) '░') ++ " ] "
    ++ Decimal.aligned 3 (Decimal.fixed32 0 (f * 100.0)) ++ "%"

/-- The figures of a report. -/
def figures (s : Snapshot) : String :=
  "sent=" ++ toString s.sent ++ " ok=" ++ toString s.completed ++ " failed=" ++ toString s.failed
    ++ " in_flight=" ++ toString s.inFlight ++ " avg=" ++ latency s.average ++ " ops/s=" ++ rate s.throughput

/-- The status line of a report. -/
def status (operation : Operation) (maxDuration : Option Duration) (s : Snapshot) : Status where
  head := match maxDuration with
    | some d => operation.name ++ " " ++ bar s.elapsed d
    | none => operation.name
  message := figures s

/-- What a report prints: nothing for people, who have the status line. -/
def progressText (operation : Operation) (s : Snapshot) : Format → String
  | .human => ""
  | .json => line (progressValue operation s)

end Cadence.Report
