import Cadence.Benchmark.Process
import Cadence.Proofs.Benchmark.Stream
import Cadence.Proofs.CommandLine.Accepted
import Cadence.Proofs.Run.Start
import Cadence.Proofs.Simulation.Process

/-!
# Commands in whatever order things happen

What is seen of a command does not depend on the virtual clock: in all the ways in which a command can go (`Performs`), of
which that on the virtual clock is one (`perform_performs`), it exits for the same reasons (`every_order_exits_alike`), and
prints the same lines for machines (`every_order_prints_a_stream`).
-/

namespace Cadence

namespace Run
open Controller

variable {σ : Type} [Source σ] {config : Config} {source : σ} {started : Nat} {moves : List (Nat × Move)}
  {course : Course} {summary : Summary}

/-- With a clock that does not go back, the summary of a run closes its reports, in whatever order things happen. -/
theorem Runs.closes (hrun : Runs config source true started moves course) (hended : course.ending = .summed summary)
    (hclock : moves.Pairwise fun a b => a.1 ≤ b.1) (hfew : course.calls.size ≤ Count.top)
    (hreports : course.reports.size ≤ Count.top) : course.Closes summary := by
  cases hrun with
  | refused => cases hended
  | overflow => cases hended
  | failed => cases hended
  | @ended plan c moves s now hplan hstart hendures ht =>
    cases hended
    obtain ⟨reporter, deadline, hreporter, _, rfl⟩ := start?_inv hstart
    have hleads := hendures.leads
    obtain ⟨last, hascending, _⟩ := hleads.ascending hclock
    have hlistening : s.controller.reporter.hasListener = true :=
      hleads.frame.listening.trans (Reporter.create?_hasListener hreporter)
    have hactive := (hleads.orderly .fresh).active_of_terminated ht
    have hbalance := (hleads.ledger System.Ledger.init hfew).balance
    rw [hactive, Nat.add_zero] at hbalance
    exact closes hlistening (hleads.numbered (.fresh hreporter)) hascending hactive hbalance hreports

/-- A run of an honest source with a configuration that passed its checks is summed up, unless the clock does not go as far
as it needs to begin. -/
lemma Runs.summed_or_overflow (hvalid : config.Valid) (hhonest : Source.Honest source)
    (hrun : Runs config source true started moves course) :
    (Reaches config started ∧ ∃ summary, course.ending = .summed summary) ∨
      (¬ Reaches config started ∧ course.ending = .clockOverflow) := by
  have hoverflow := (hrun.overflow_inv hvalid).1
  cases hrun with
  | refused hplan => cases hplan.symm.trans (Config.plan_eq_ok_iff (p := ⟨config, hvalid⟩).mpr rfl)
  | overflow => exact .inr ⟨hoverflow.mp rfl, rfl⟩
  | failed _ hstart hendures _ hs =>
    obtain ⟨_, _, _, _, rfl⟩ := start?_inv hstart
    exact absurd hhonest (hendures.breach hs).2
  | ended =>
    refine .inl ⟨?_, _, rfl⟩
    by_contra hout
    cases hoverflow.mpr hout

end Run

namespace Benchmark

open CommandLine (Command)
open Report (Closing Entry)

variable {idna : Url.Idna} {c : Command} {tree : FileTree} {chance : Chance} {started : Nat}
  {moves : List (Nat × Run.Move)} {seen : Performance}

/-- In whatever way a command goes that is fit for a run: its input is at fault; or the clock does not go as far as its run
needs to begin; or its run is summed up, and it concludes. -/
inductive Turns (idna : Url.Idna) (c : Command) (tree : FileTree) (started : Nat) : Performance → Prop where
  | unready {f notes} :
    Unready idna c tree →
    f.exitCode = .invalidInput →
    Turns idna c tree started (.failed f notes tree)
  | unbegun {printed notes course} :
    ¬ Unready idna c tree →
    ¬ Run.Reaches c.common.config started →
    course.ending = .clockOverflow →
    Turns idna c tree started ⟨none, printed, none, notes, tree, some course⟩
  | concluded {printed course summary seen} :
    ¬ Unready idna c tree →
    Run.Reaches c.common.config started →
    course.ending = .summed summary →
    Concluded c tree printed course summary seen →
    Turns idna c tree started seen

/-- A command that is fit for a run turns out in one of these ways. -/
lemma Performs.turns (hfit : c.Fit) (h : Performs idna c tree chance started moves seen) :
    Turns idna c tree started seen := by
  have hprepares := prepares idna tree chance fun _ _ _ _ hc => (hfit.payloads _ _ _ _ hc).1
  cases h with
  | unprepared hp =>
    rw [hp] at hprepares
    cases hprepares with
    | unready hunready hf => exact .unready hunready (if_pos hf)
  | unplanned _ hplan => cases hplan.symm.trans (Config.plan_eq_ok_iff (p := ⟨_, hfit.config⟩).mpr rfl)
  | @ran p _ _ course exchange hp _ hrun =>
    rw [hp] at hprepares
    cases hprepares with
    | ready hready =>
      unfold present
      obtain ⟨hreaches, summary, hended⟩ | ⟨hreaches, hended⟩ :=
        hrun.summed_or_overflow hfit.config (Prepared.fresh hp).honest
      · rw [hended]
        exact .concluded hready hreaches hended (concluded _ _ _ _ _)
      · rw [hended]
        exact .unbegun hready hreaches hended

/-- How a command exits that is fit for a run, whatever its operations do and in whatever order things happen. Its input is
refused exactly if it is at fault, and then nothing was printed, no file was changed and nothing was run; it fails exactly if
its run made identifiers that cannot be written; it has no exit code exactly if the clock does not go as far as its run needs
to begin; and it succeeds in every other case. -/
theorem every_order_exits_alike (hfit : c.Fit) (h : Performs idna c tree chance started moves seen) :
    (seen.exit = some .invalidInput ↔ Unready idna c tree) ∧
    (Unready idna c tree → seen.output = "" ∧ seen.tree = tree ∧ seen.course = none) ∧
    (seen.exit = some .runtimeError ↔ Unwritable tree seen.course c) ∧
    (seen.exit = none ↔ ¬ Unready idna c tree ∧ ¬ Run.Reaches c.common.config started) ∧
    (seen.exit = some .success ↔ ¬ Unready idna c tree ∧ Run.Reaches c.common.config started ∧
      ¬ Unwritable tree seen.course c) := by
  cases h.turns hfit with
  | unready hunready hf =>
    have hwritable : ¬ Unwritable tree none c := by
      intro h
      cases h with
      | upload hsummary => cases hsummary
    simp [Performance.failed, hf, hunready, hwritable]
  | @unbegun _ _ course hready hreaches hended =>
    have hwritable : ¬ Unwritable tree (some course) c := by
      intro h
      cases h with
      | upload hsummary => cases hended.symm.trans (summary?_eq_some_iff.mp hsummary)
    simp [hready, hreaches, hwritable]
  | concluded hready hreaches hended hconcluded =>
    obtain ⟨hcourse, ⟨hunwritable, hexit⟩ | ⟨hwritable, hexit⟩⟩ := hconcluded.exit_cases hended
    · simp [hcourse, hexit, hready, hreaches, hunwritable]
    · simp [hcourse, hexit, hready, hreaches, hwritable]

/-- What a command prints for machines if it succeeds, whatever its operations do and in whatever order things happen, as
long as the clock does not go back and its operations and its reports can be counted. -/
theorem every_order_prints_a_stream {course : Run.Course} (h : Performs idna c tree chance started moves seen)
    (hclock : moves.Pairwise fun a b => a.1 ≤ b.1) (hformat : c.common.output = .json)
    (hexit : seen.exit = some .success) (hcourse : seen.course = some course) (hfew : course.calls.size ≤ Count.top)
    (hreports : course.reports.size ≤ Count.top) :
    ∃ summary reports closing, course.ending = .summed summary ∧
      Streams c tree course summary seen reports closing := by
  cases h with
  | unprepared => cases hcourse
  | unplanned => cases hcourse
  | @ran p _ _ course' exchange _ _ hrun =>
    obtain rfl : course' = course := Option.some.inj ((present_course p exchange).symm.trans hcourse)
    exact (comes_of_present p exchange course').streams hformat hexit
      fun summary hended => hrun.closes hended hclock hfew hreports

/-- A command on the virtual clock goes in one of the ways in which it can, if its run comes out and the process has room for
it. -/
theorem perform_performs {s : Surroundings}
    (hends : ∀ course, (perform c tree s).course = some course →
      course.ending ≠ .endless ∧ course.calls.size ≤ 2 * Run.System.handles) :
    ∃ moves, Performs s.idna c tree s.chance 0 moves (perform c tree s) := by
  unfold perform at hends ⊢
  cases hp : prepare s.idna c tree s.chance with
  | error f => exact ⟨[], .unprepared hp⟩
  | ok p =>
    rw [hp] at hends
    dsimp only [performPrepared] at hends ⊢
    cases hplan : c.common.config.plan with
    | error f => exact ⟨[], .unplanned hp hplan⟩
    | ok plan =>
      rw [hplan] at hends
      dsimp only at hends ⊢
      obtain ⟨hcomes, hroom⟩ := hends _ (present_course p _)
      rw [Config.plan_eq_ok_iff.mp hplan] at hcomes hroom ⊢
      obtain ⟨moves, hrun⟩ := Run.simulate_runs rfl hcomes hroom
      exact ⟨moves, .ran hp hplan hrun⟩

end Benchmark
end Cadence
