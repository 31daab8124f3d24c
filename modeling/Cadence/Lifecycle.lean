import Cadence.Count
import Cadence.Fault

/-!
# Lifecycle of a run

A run dispatches until it is told to stop, then waits for the operations in flight, then ends. Two small
machines say how far it is: the count of operations in flight, which knows whether more can come, and the phase,
which keeps the first cause for stopping.

* `Phase.drain?_eq_none_iff`: only a running phase starts to drain.
* `Phase.terminate?_eq_some_iff`: a draining phase ends exactly when nothing is in flight any more.
-/

namespace Cadence

/-- Why dispatch stopped. -/
inductive StopCause where
  | exhausted
  | interrupted
  | deadlineReached
deriving DecidableEq, Repr

/-- The name of a cause in logs and summaries. -/
def StopCause.text : StopCause → String
  | .exhausted => "exhausted"
  | .interrupted => "interrupted"
  | .deadlineReached => "deadline_reached"

/-- How many operations are in flight, and whether no further one can be dispatched. -/
structure InFlight where
  active : Nat
  closed : Bool
deriving DecidableEq, Repr

namespace InFlight

/-- Nothing in flight, more can come. -/
def empty : InFlight := ⟨0, false⟩

/-- One more operation in flight. -/
def dispatch (f : InFlight) : InFlight := { f with active := Count.next f.active }

/-- One operation less in flight; there has to be one. -/
def complete (f : InFlight) : Except Fault InFlight :=
  match f.active with
  | 0 => .error .noneInFlight
  | n + 1 => .ok { f with active := n }

/-- No further operation can be dispatched. -/
def close (f : InFlight) : InFlight := { f with closed := true }

/-- Whether there is nothing left to wait for. -/
def isComplete (f : InFlight) : Bool := f.closed && f.active == 0

end InFlight

/-- How far a run is, with the cause for which it stopped dispatching. -/
inductive Phase where
  | running
  | draining (cause : StopCause)
  | terminated (cause : StopCause)
deriving DecidableEq, Repr

namespace Phase

/-- Whether the run still dispatches. -/
def isRunning : Phase → Bool
  | running => true
  | _ => false

/-- The cause for which the run stopped dispatching. -/
def cause? : Phase → Option StopCause
  | running => none
  | draining c => some c
  | terminated c => some c

/-- Stops dispatch, if it has not stopped yet. -/
def drain? (p : Phase) (cause : StopCause) (f : InFlight) : Option (Phase × InFlight) :=
  match p with
  | running => some (draining cause, f.close)
  | _ => none

/-- Ends the run, if it drains and there is nothing left to wait for. -/
def terminate? (p : Phase) (f : InFlight) : Option Phase :=
  match p with
  | draining c => if f.isComplete then some (terminated c) else none
  | _ => none

theorem isRunning_iff {p : Phase} : p.isRunning = true ↔ p = running := by
  cases p <;> simp [isRunning]

theorem drain?_eq_none_iff (p : Phase) (cause : StopCause) (f : InFlight) :
    p.drain? cause f = none ↔ p.isRunning = false := by
  cases p <;> simp [drain?, isRunning]

theorem terminate?_eq_some_iff (p q : Phase) (f : InFlight) :
    p.terminate? f = some q ↔ ∃ c, p = draining c ∧ q = terminated c ∧ f.isComplete = true := by
  cases p with
  | running => simp [terminate?]
  | draining c =>
    unfold terminate?
    by_cases h : f.isComplete = true
    · simp [h, eq_comm]
    · simp [h]
  | terminated c => simp [terminate?]

end Phase
end Cadence
