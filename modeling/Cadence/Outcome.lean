import Cadence.Duration

/-!
# Outcomes of operations
-/

namespace Cadence

/-- How one operation ended: whether it succeeded, how long it took, and the identifier that it made. -/
structure Outcome where
  succeeded : Bool
  latency : Duration
  produced : Option String
deriving DecidableEq

/-- A success that made nothing. -/
def Outcome.success (latency : Duration) : Outcome := ⟨true, latency, none⟩

/-- A success that made an identifier. -/
def Outcome.made (latency : Duration) (id : String) : Outcome := ⟨true, latency, some id⟩

/-- A failure. -/
def Outcome.failure (latency : Duration) : Outcome := ⟨false, latency, none⟩

end Cadence
