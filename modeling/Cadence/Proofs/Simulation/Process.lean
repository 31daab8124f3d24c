import Cadence.Proofs.Run.Faults
import Cadence.Proofs.Simulation.Course

/-!
# The virtual clock in the process

A run on the virtual clock is one of the ways in which the run of its configuration and source can go
(`simulate_runs`), so what holds of all of these holds of it.
-/

namespace Cadence.Run

namespace System

variable {σ : Type} [Source σ]

/-- A process endures a run whose timers do not break down and that dispatches no more operations than it has room for. -/
lemma Flows.endures {s t : System σ} {moves} (hrun : s.Flows moves t) (h : Placed s)
    (hroom : t.controller.calls.size ≤ 2 * handles) : s.Endures moves t := by
  have hfits : ∀ {moves} {u : System σ}, s.Leads moves u → u.controller.calls.size ≤ 2 * handles → u.Fits := by
    intro moves u hu hle
    exact Nat.le_trans (hu.placed h (Nat.le_trans hle (by decide))).outstanding_le hle
  induction hrun with
  | nil => exact .nil (hfits .nil hroom)
  | snoc hrun hwhole hs ih =>
    have hbefore := Nat.le_trans (step_calls_le hs) hroom
    exact .snoc (ih hbefore) hwhole hs (hfits (.snoc hrun.leads hs) hroom)

/-- A signal that the controller fails at fails. -/
lemma signal_error {s : System σ} {now e f} (h : s.controller.step now e = .error f) : s.signal now e = .error f := by
  rw [signal, h]
  rfl

end System

namespace Simulation
open Controller

variable {σ : Type} [Source σ] {env : Environment}

/-- A small step of a punctual run that fails is a move that fails, and no timer breaks down at it. -/
lemma faulted_step {s : Simulation σ} {e f} (hq : Punctual env s) (hn : Next env s e)
    (hs : s.controller.step s.now e = .error f) :
    ∃ m, s.system.breaks s.now m = false ∧ s.system.step s.now m = .error f := by
  cases hn with
  | interrupt => exact ⟨.interrupt, rfl, System.signal_error hs⟩
  | deadline => exact ⟨.deadline, rfl, System.signal_error hs⟩
  | report hp _ _ _ hdue => exact ⟨.report, hq.not_breaks_report hp hdue, System.signal_error hs⟩
  | tick hp _ _ _ _ hdue => exact ⟨.tick, hq.not_breaks_tick hp hdue, System.signal_error hs⟩
  | @completion p rest hw =>
    have ht : s.controller.isTerminated = false := by
      apply Bool.eq_false_iff.mpr
      intro ht
      rw [step_terminated ht] at hs
      cases hs
    refine ⟨.receive, rfl, ?_⟩
    simp only [System.step, System.receive, system, ht, hw, List.map_cons, Pending.delivery, hs]
    rfl

end Simulation

open Controller Simulation

variable {σ : Type} [Source σ] {env : Environment} {config : Config} {source : σ} {listening : Bool}

/-- If a run comes out in its next small step, it is a run of its configuration and its source. -/
lemma runs_of_advance {plan : Plan} {c : Controller σ} {n} {s : Simulation σ} (hplan : config.plan = .ok plan)
    (hstart : start? plan source listening 0 = some c) (hpasses : Passes env (Simulation.init c) n s)
    (hroom : s.controller.calls.size ≤ 2 * System.handles) (hends : (s.advance env).course.ending ≠ .endless) :
    ∃ moves, Runs config source listening 0 moves (s.advance env).course := by
  obtain ⟨reporter, deadline, _, _, rfl⟩ := start?_inv hstart
  obtain ⟨moves, hflows⟩ := hpasses.flows (Nat.le_trans hroom (by decide))
  have hendures := hflows.endures .init hroom
  cases ha : s.advance env with
  | continues t =>
    rw [ha] at hends
    exact absurd rfl hends
  | stalled t =>
    rw [ha] at hends
    exact absurd rfl hends
  | faulted t f =>
    obtain ⟨rfl, e, hn, hs⟩ := advance_faulted ha
    obtain ⟨m, hwhole, hm⟩ := faulted_step hpasses.punctual hn hs
    exact ⟨_, .failed hplan hstart hendures hwhole hm⟩
  | ended t =>
    obtain ⟨rfl, ht⟩ := advance_ended ha
    exact ⟨moves, .ended hplan hstart hendures ht⟩

/-- A run on the virtual clock that comes out, in a process that has room for it, is a run of its configuration and its
source. -/
theorem simulate_runs {supply : Option Nat} {course : Course}
    (h : simulate config source supply listening env = course) (hends : course.ending ≠ .endless)
    (hroom : course.calls.size ≤ 2 * System.handles) : ∃ moves, Runs config source listening 0 moves course := by
  obtain ⟨f, hplan, rfl⟩ | ⟨plan, hplan, hbegun⟩ := simulate_cases h hends
  · exact ⟨[], .refused hplan⟩
  · obtain ⟨hstart, rfl⟩ | ⟨c, n, s, hstart, hpasses, rfl, hcalls⟩ := hbegun
    · exact ⟨[], .overflow hplan hstart⟩
    · exact runs_of_advance hplan hstart hpasses (hcalls ▸ hroom) hends

end Cadence.Run
