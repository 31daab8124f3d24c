import Cadence.Run.Simulation
import Cadence.Run.System

/-!
# A run in its process

A run as it looks from outside: from a configuration and a source to how it came out, with everything that happened
meanwhile. A process has room for so many operations at once; a run that outgrows it never comes out, and neither does one
whose timers break down because they are late at the end of the clock.

* `System.Fits` says that the process has room for a system, `System.breaks` that a timer breaks down, and `System.Endures`
  that there was room all along and no timer broke down.
* `Runs` relates a configuration and a source to the ways in which their run can go.
-/

namespace Cadence.Run

namespace System

variable {σ : Type}

/-- A process gives at most so many handles of one object away, and lets at most so many results wait on one channel;
one more, and it aborts. -/
def handles : Nat := 9223372036854775807

/-- The process has room for the operations that are outstanding: a task holds a handle of the executor until it ends,
and its result waits on the channel from then on. -/
def Fits (s : System σ) : Prop := s.outstanding ≤ 2 * handles

/-- Whether a timer breaks down at a move: the one that fires, as long as the run dispatches. -/
def breaks (s : System σ) (now : Nat) : Move → Bool
  | .report => s.controller.accepts .report && s.controller.reporter.timer.breaks now
  | .tick => s.controller.accepts .tick && s.controller.ticker.breaks now
  | _ => false

/-- A list of moves leads from one state to another, no timer breaks down, and the process always has room. -/
inductive Endures [Source σ] (s : System σ) : List (Nat × Move) → System σ → Prop where
  | nil : s.Fits → Endures s [] s
  | snoc {moves t u now m} :
    Endures s moves t →
    t.breaks now m = false →
    t.step now m = .ok u →
    u.Fits →
    Endures s (moves ++ [(now, m)]) u

end System

/-- The ways in which a run can go that begins at `started`: what happens in it, and what comes of it. -/
inductive Runs {σ : Type} [Source σ] (config : Config) (source : σ) (hasListener : Bool) (started : Nat) :
    List (Nat × Move) → Course → Prop where
  | refused {f} :
    config.plan = .error f →
    Runs config source hasListener started [] (.unstarted (.refused f))
  | overflow {plan} :
    config.plan = .ok plan →
    Controller.start? plan source hasListener started = none →
    Runs config source hasListener started [] (.unstarted .clockOverflow)
  | failed {plan c moves s now m f} :
    config.plan = .ok plan →
    Controller.start? plan source hasListener started = some c →
    (System.init c).Endures moves s →
    s.breaks now m = false →
    s.step now m = .error f →
    Runs config source hasListener started (moves ++ [(now, m)]) (.of s.controller (.refused f) #[])
  | ended {plan c moves s now} :
    config.plan = .ok plan →
    Controller.start? plan source hasListener started = some c →
    (System.init c).Endures moves s →
    s.controller.isTerminated = true →
    Runs config source hasListener started moves
      (.of s.controller (.summed (s.controller.summary now)) #[s.controller.closingNote])

end Cadence.Run
