import Cadence.Interval
import Cadence.Tally

/-!
# Reports

Reports are taken at a steady pace, the first one interval after the start, and numbered from one on.

* `Reporter.emit` takes a report, and `Reporter.heard` is what the listener hears of it.
-/

namespace Cadence

/-- The timer of the reports, how many were emitted, and whether anybody listens. -/
structure Reporter where
  timer : Interval
  emitted : Nat
  hasListener : Bool
deriving DecidableEq

namespace Reporter

/-- The first report is due an interval after `start`, if the clock goes that far. -/
def create? (every : Duration) (start : Nat) (hasListener : Bool) : Option Reporter :=
  (Clock.after? start every).map fun first => ⟨⟨first, every, .delay⟩, 0, hasListener⟩

/-- Takes a report at `now` of a run that began at `started`. -/
def emit (r : Reporter) (t : Tally) (started now : Nat) (inFlight : Nat) : Snapshot × Reporter :=
  (t.snapshot started now inFlight (Count.next r.emitted), { r with emitted := Count.next r.emitted })

/-- What the listener hears of a report, if there is one. -/
def heard (r : Reporter) (s : Snapshot) : Option Snapshot := if r.hasListener then some s else none

/-- The state of the reporter in one line. -/
def describe (r : Reporter) : String :=
  "Reporter \x7b emitted: " ++ toString r.emitted ++ ", has_progress: " ++ toString r.hasListener ++ " \x7d"

end Reporter

/-- The timer of dispatch: the first tick is due at `start`, and missed ticks are caught up. -/
def Interval.ofTicks (every : Duration) (start : Nat) : Interval := ⟨start, every, .burst⟩

end Cadence
