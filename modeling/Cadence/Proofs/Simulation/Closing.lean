import Cadence.Proofs.Run.Series
import Cadence.Proofs.Simulation.Results

/-!
# The summary of a run closes its reports

A run on the virtual clock takes its reports in order (`Passes.ascending`). Once it was summed up, whoever listened has
heard all of them, and the summary goes on where they end (`simulate_closes`).
-/

namespace Cadence.Run

open Controller

variable {σ : Type} [Source σ] {env : Environment} {config : Config} {source : σ} {supply : Option Nat}
  {course : Course} {summary : Summary}

/-- The reports of a run come in order all along. -/
lemma Simulation.Passes.ascending {plan : Plan} {reporter deadline n} {s : Simulation σ}
    (h : Passes env (init (fresh plan source 0 reporter deadline)) n s) : Ascending s.now s.controller := by
  induction h with
  | zero => exact ⟨.nil, fun r hr => by cases Array.mem_toList_iff.mpr hr⟩
  | succ hp ha ih =>
    have hcounted := hp.invariant Counted.fresh fun _ _ _ _ hc hr => hc.reaction hr
    cases advance_inv ha with
    | event _ _ _ hr => exact ih.reaction hcounted hr
    | deliver => exact ih
    | jump => exact ih.mono (Nat.le_max_left _ _)

/-- Whoever listened to a run that was summed up has heard a series of reports that its summary closes, as long as its
operations and its reports can be counted. -/
theorem simulate_closes (h : simulate config source supply true env = course)
    (hended : course.ending = .summed summary) (hfew : course.calls.size ≤ Count.top)
    (hreports : course.reports.size ≤ Count.top) : course.Closes summary := by
  obtain ⟨plan, reporter, deadline, n, s, hreporter, hpasses, ht, rfl, rfl⟩ := simulate_inv h hended
  have hlistening : s.controller.reporter.hasListener = true :=
    (hpasses.invariant (P := fun c => c.reporter.hasListener = reporter.hasListener) rfl
      fun _ _ _ _ hc hr => hr.frame.listening.trans hc).trans (Reporter.create?_hasListener hreporter)
  have hnumbered := hpasses.invariant (Numbered.fresh hreporter) fun _ _ _ _ hn hr => hn.reaction hr
  have hactive := hpasses.orderly.active_of_terminated ht
  have hbalance := (hpasses.ledger hfew).balance
  have hzero : s.system.controller.inFlight.active = 0 := hactive
  rw [hzero, Nat.add_zero] at hbalance
  exact closes hlistening hnumbered hpasses.ascending hactive hbalance hreports

end Cadence.Run
