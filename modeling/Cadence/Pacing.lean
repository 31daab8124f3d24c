import Cadence.Reporter

/-!
# Pacing

The timers of ticks and of reports on one clock: time passes, or one waits for the next tick or the next report, in any
order and however late.

* `Pacing.start?` is the state at the start of a run, if the clock goes as far as the first report.
* `Pacing.waits` is what became of the waits for one of the timers.
-/

namespace Cadence

/-- A wait for a timer: the timer as it was, and the instant at which the wait began. -/
structure Wait where
  timer : Interval
  begun : Nat
deriving DecidableEq

namespace Wait

/-- The instant at which the wait ended. -/
def ended (w : Wait) : Nat := (w.timer.wait w.begun).1

/-- The timer as the wait left it. -/
def left (w : Wait) : Interval := (w.timer.wait w.begun).2

/-- The timer broke down at the end of the wait. -/
def breaks (w : Wait) : Bool := w.timer.breaks w.ended

/-- The clock can represent the deadline after the one that was waited for. -/
def InRange (w : Wait) : Prop := w.timer.origin w.ended + w.timer.period.nanos < Clock.limit

instance (w : Wait) : Decidable w.InRange := inferInstanceAs (Decidable (_ < _))

end Wait

/-- The clock, and the timers of ticks and of reports. -/
structure Pacing where
  now : Nat
  ticker : Interval
  reporter : Reporter
deriving DecidableEq

namespace Pacing

/-- One of the two timers. -/
inductive Timer where
  | ticks
  | reports
deriving DecidableEq, Repr

/-- What can happen: time passes, or one waits for a timer. -/
inductive Event where
  | passed (time : Duration)
  | waited (timer : Timer)
deriving DecidableEq

/-- At `start` both timers begin. -/
def start? (tick every : Duration) (start : Nat) (hasListener : Bool) : Option Pacing :=
  (Reporter.create? every start hasListener).map fun reporter => ⟨start, Interval.ofTicks tick start, reporter⟩

/-- The timer as it is. -/
def timer (p : Pacing) : Timer → Interval
  | .ticks => p.ticker
  | .reports => p.reporter.timer

/-- A wait for a timer that begins now. -/
def wait (p : Pacing) (t : Timer) : Wait := ⟨p.timer t, p.now⟩

/-- The clock and the timers after one more event. -/
def follow (p : Pacing) : Event → Pacing
  | .passed time => { p with now := p.now + time.nanos }
  | .waited .ticks => { p with now := (p.wait .ticks).ended, ticker := (p.wait .ticks).left }
  | .waited .reports =>
    { p with now := (p.wait .reports).ended, reporter := { p.reporter with timer := (p.wait .reports).left } }

/-- The waits for a timer in a history of events, in order. -/
def waits (t : Timer) (p : Pacing) : List Event → List Wait
  | [] => []
  | .passed time :: history => waits t (p.follow (.passed time)) history
  | .waited u :: history =>
    if u = t then p.wait t :: waits t (p.follow (.waited u)) history else waits t (p.follow (.waited u)) history

end Pacing
end Cadence
