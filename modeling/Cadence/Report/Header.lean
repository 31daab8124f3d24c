import Cadence.ByteSize
import Cadence.Duration.Notation
import Cadence.Operation
import Cadence.Report.Figure

/-!
# Header of a run

What a run is about to do, for people; machines read the progress lines alone.
-/

namespace Cadence.Report

/-- How output is written: for people, or as one JSON object a line. -/
inductive Format where
  | human
  | json
deriving DecidableEq, Repr

/-- What a run is about to do. -/
structure Header where
  operation : Operation
  target : String
  workload : String
  rate : Nat
  tick : Duration
  targetRate : Float
  maxDuration : Option Duration

/-- The pacing of a run in one line. -/
def Header.pacing (h : Header) : String :=
  "pacing: " ++ toString h.rate ++ "/tick every " ++ h.tick.display ++ " (~" ++ Report.rate h.targetRate ++ " ops/s)"
    ++ match h.maxDuration with
      | some d => " for at most " ++ d.display
      | none => ""

/-- The lines printed before a run, each with its line feed. -/
def Header.render (h : Header) : Format → String
  | .human =>
    "operation: " ++ h.operation.name ++ " target=" ++ h.target ++ "\n"
      ++ "workload: " ++ h.workload ++ "\n" ++ h.pacing ++ "\n\n"
  | .json => ""

/-- A workload of payloads in words. -/
def describePayloads (size : Nat) : Option Nat → String
  | some n => toString n ++ " random payloads of " ++ ByteSize.display size
  | none => "random payloads of " ++ ByteSize.display size ++ " until stopped"

end Cadence.Report
