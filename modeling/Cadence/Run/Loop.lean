import Cadence.Run.Controller

/-!
# The loop of a run

A run waits on five branches at once. In one round it polls those that it waits on, one after the other in order of
precedence, up to the first that is ready, and reacts to that one.

* `Controller.waitsOn` says which branches those are: results until the run has ended, all others while it dispatches.
* `Controller.polled` are the branches that a round looks at, `Controller.chosen?` the one that it reacts to.
* `Controller.waitsOn_of_accepts`: a run waits on every event that it reacts to.
-/

namespace Cadence.Run

/-- What a run waits on. -/
inductive Branch where
  | interrupt
  | results
  | deadline
  | report
  | tick
deriving DecidableEq

/-- All branches, in order of precedence. -/
def Branch.inOrder : List Branch := [interrupt, results, deadline, report, tick]

/-- The branch on which an event comes. -/
def Event.branch : Event → Branch
  | .interrupt => .interrupt
  | .completion _ _ => .results
  | .deadline => .deadline
  | .report => .report
  | .tick => .tick

namespace Controller

variable {σ : Type}

/-- Whether a run waits on a branch. -/
def waitsOn (c : Controller σ) : Branch → Bool
  | .results => !c.isTerminated
  | _ => c.phase.isRunning

/-- The branches that a run waits on, in order of precedence. -/
def branches (c : Controller σ) : List Branch := Branch.inOrder.filter c.waitsOn

/-- The branches that are polled in a round in which those are ready that `ready` says. -/
def polled (c : Controller σ) (ready : Branch → Bool) : List Branch :=
  c.branches.take (c.branches.findIdx ready + 1)

/-- The branch that the run reacts to in such a round, if any is ready. -/
def chosen? (c : Controller σ) (ready : Branch → Bool) : Option Branch := c.branches.find? ready

theorem waitsOn_of_mem_polled {c : Controller σ} {ready : Branch → Bool} {b : Branch} (h : b ∈ c.polled ready) :
    c.waitsOn b = true :=
  (List.mem_filter.mp (List.mem_of_mem_take h)).2

theorem waitsOn_of_accepts {c : Controller σ} {e : Event} (h : c.accepts e = true) : c.waitsOn e.branch = true := by
  cases e with
  | completion operation o =>
    simp only [accepts, Event.branch, waitsOn, isTerminated] at h ⊢
    cases hp : c.phase with
    | terminated cause => rw [hp] at h; cases h
    | _ => rfl
  | deadline => exact (Bool.and_eq_true_iff.mp h).1
  | _ => exact h

end Controller
end Cadence.Run
