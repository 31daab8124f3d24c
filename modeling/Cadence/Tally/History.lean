import Cadence.Tally

/-!
# Histories of a tally

What a tally is told of a run, one after the other.

* `Tally.successes` is what a history says of how long its successes took, in order.
* `Tally.Paced` says that at no point of a history more operations have ended than were dispatched.
-/

namespace Cadence.Tally

/-- What a tally can be told: an operation is dispatched, or one has ended. -/
inductive Event where
  | dispatched
  | ended (o : Outcome)
deriving DecidableEq

/-- The tally after one more event. -/
def follow (t : Tally) : Event → Tally
  | .dispatched => t.dispatch
  | .ended o => t.record o

/-- What an empty tally has become after a history of events. -/
def after (history : List Event) : Tally := history.foldl follow empty

/-- How long the operation took, if the event is a success. -/
def Event.latency? : Event → Option Duration
  | .dispatched => none
  | .ended o => if o.succeeded then some o.latency else none

/-- How long the successes of a history took. -/
def successes (history : List Event) : List Duration := history.filterMap Event.latency?

/-- Whether an operation has ended. -/
def Event.isEnd : Event → Bool
  | .dispatched => false
  | .ended _ => true

/-- Whether an operation has failed. -/
def Event.isFailure : Event → Bool
  | .dispatched => false
  | .ended o => !o.succeeded

/-- Results never outrun dispatches. -/
def Paced (history : List Event) : Prop :=
  ∀ n ≤ history.length, (history.take n).countP Event.isEnd ≤ (history.take n).count .dispatched

end Cadence.Tally
