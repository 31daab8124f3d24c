import Cadence.Outcome

/-!
# Tasks

Every operation runs in a task of its own, which holds a guard with a sender. The guard sends the result of the
operation when the task hands it one; let go with the sender still in it, it sends a failure. So a task that
breaks down is heard of too.

* `TaskEnd.messages_eq`: however a task ends, exactly one result is sent.
-/

namespace Cadence.Run

/-- The guard of a task: whether its sender is still there, and what it sent. -/
structure Guard where
  loaded : Bool
  sent : List Outcome

namespace Guard

/-- A guard that has sent nothing. -/
def fresh : Guard := ⟨true, []⟩

/-- Sends a result and gives the sender away, if it is still there. -/
def send (g : Guard) (o : Outcome) : Guard :=
  if g.loaded then ⟨false, g.sent ++ [o]⟩ else g

/-- Lets the guard go when the operation is `age` old. -/
def release (g : Guard) (age : Duration) : Guard := g.send (.failure age)

end Guard

/-- How a task ends: with the result of its operation, cut off after the time allowed, or broken down. -/
inductive TaskEnd where
  | returned (outcome : Outcome) (age : Duration)
  | cutOff (elapsed age : Duration)
  | brokeDown (age : Duration)

namespace TaskEnd

/-- What a task has sent when it is gone: its guard is let go last, whatever happened before. -/
def messages : TaskEnd → List Outcome
  | returned o age => ((Guard.fresh.send o).release age).sent
  | cutOff elapsed age => ((Guard.fresh.send (.failure elapsed)).release age).sent
  | brokeDown age => (Guard.fresh.release age).sent

/-- The result of an operation whose task ended so. -/
def result : TaskEnd → Outcome
  | returned o _ => o
  | cutOff elapsed _ => .failure elapsed
  | brokeDown age => .failure age

theorem messages_eq (e : TaskEnd) : e.messages = [e.result] := by
  cases e <;> rfl

end TaskEnd
end Cadence.Run
