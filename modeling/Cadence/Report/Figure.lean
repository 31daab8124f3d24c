import Cadence.Decimal.Fixed

/-!
# Figures for people

Rates and latencies with as many places as a reader needs.
-/

namespace Cadence.Report

/-- A rate per second: two places below ten, none above; what is no finite number shows as zero. -/
def rate (x : Float) : String :=
  if !x.isFinite then "0" else if x < 10.0 then Decimal.fixed 2 x else Decimal.fixed 0 x

/-- A latency in milliseconds, in seconds from one second on; what is not known is never shown as zero. -/
def latency : Option Float → String
  | some ms =>
    if !ms.isFinite then "n/a"
    else if 1000.0 ≤ ms then Decimal.fixed 2 (ms / 1000.0) ++ "s"
    else Decimal.fixed 2 ms ++ "ms"
  | none => "n/a"

end Cadence.Report
