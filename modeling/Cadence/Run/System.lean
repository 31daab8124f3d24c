import Cadence.Run.Controller
import Cadence.Run.Task

/-!
# A run among its tasks

The controller of a run, the tasks of the operations in flight, and the channel on which their results come. Tasks
end when and how they like, and the controller reacts to whatever is there, so a run is a list of moves in any
order, each at its instant.

* `System.step` is total; a move that is not possible changes nothing.
* `System.Leads` says which states a list of moves leads to.
-/

namespace Cadence.Run

/-- A result on its way to the controller. -/
structure Delivery where
  operation : Nat
  outcome : Outcome

/-- The results that wait, the oldest first, and how many senders there are. -/
structure Channel where
  waiting : List Delivery
  senders : Nat

/-- A run with the operations whose tasks have not ended. -/
structure System (σ : Type) where
  controller : Controller σ
  tasks : List Nat
  channel : Channel

/-- What can happen next. -/
inductive Move where
  | finish (operation : Nat) (how : TaskEnd)
  | receive
  | interrupt
  | deadline
  | report
  | tick

namespace System

variable {σ : Type}

/-- A run that nothing has happened in. The controller keeps a sender of its own. -/
def init (c : Controller σ) : System σ := ⟨c, [], ⟨[], 1⟩⟩

/-- How many operations were dispatched whose result has not been taken in. -/
def outstanding (s : System σ) : Nat := s.tasks.length + s.channel.waiting.length

/-- The operations that `c` has dispatched beyond those of `s` get their tasks, each with a sender. -/
def spawn (s : System σ) (c : Controller σ) : System σ :=
  let fresh := List.range' s.controller.calls.size (c.calls.size - s.controller.calls.size)
  { controller := c
    tasks := s.tasks ++ fresh
    channel := { s.channel with senders := s.channel.senders + fresh.length } }

/-- The controller reacts to an event. -/
def signal [Source σ] (s : System σ) (now : Nat) (e : Event) : Except Fault (System σ) :=
  (s.controller.step now e).map s.spawn

/-- A task ends, and its sender with it. -/
def finish (s : System σ) (operation : Nat) (how : TaskEnd) : System σ :=
  if operation ∈ s.tasks then
    { s with
      tasks := s.tasks.filter (· ≠ operation)
      channel :=
        { waiting := s.channel.waiting ++ how.messages.map (⟨operation, ·⟩)
          senders := s.channel.senders - 1 } }
  else s

/-- The controller looks at the channel, as long as the run has not ended. A channel that is empty and has no
sender left is closed. -/
def receive [Source σ] (s : System σ) (now : Nat) : Except Fault (System σ) :=
  if s.controller.isTerminated then .ok s
  else match s.channel.waiting with
    | [] =>
      if s.channel.senders = 0 then .error (.channelClosed s.controller.inFlight.active) else .ok s
    | d :: rest =>
      (s.controller.step now (.completion d.operation d.outcome)).map fun c =>
        { s with controller := c, channel := { s.channel with waiting := rest } }

/-- The system after a move at `now`. -/
def step [Source σ] (s : System σ) (now : Nat) : Move → Except Fault (System σ)
  | .finish operation how => .ok (s.finish operation how)
  | .receive => s.receive now
  | .interrupt => s.signal now .interrupt
  | .deadline => s.signal now .deadline
  | .report => s.signal now .report
  | .tick => s.signal now .tick

/-- A list of moves, each at its instant, leads from one state to another. -/
inductive Leads [Source σ] (s : System σ) : List (Nat × Move) → System σ → Prop where
  | nil : Leads s [] s
  | snoc {moves t u now m} : Leads s moves t → t.step now m = .ok u → Leads s (moves ++ [(now, m)]) u

end System
end Cadence.Run
