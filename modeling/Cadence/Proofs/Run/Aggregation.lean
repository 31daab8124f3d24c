import Cadence.Proofs.Run.Execution
import Cadence.Proofs.Run.Faults
import Cadence.Proofs.Run.Gathering
import Cadence.Proofs.Run.Ledger

/-!
# Aggregation of results

What a run that has ended sums up depends on the results of its operations alone (`Runs.gathered`), and not on the order
in which these were taken in, nor on what else happened meanwhile: two runs with the same results, failures being all
alike, come to the same figures and to the same identifiers in some order (`summary_does_not_see_order`).
-/

namespace Cadence.Run

/-- Every task that ends brings the result that its operation has. -/
def Answered (moves : List (Nat × Move)) (result : Nat → Outcome) : Prop :=
  ∀ now operation how, (now, Move.finish operation how) ∈ moves → how.result = result operation

namespace System
open Controller

variable {σ : Type} [Source σ]

/-- The results that a run took in are those of its operations once it has ended, in some order. -/
lemma Endures.outcomes_perm {plan : Plan} {source : σ} {started reporter deadline} {s : System σ} {moves result}
    (hrun : (System.init (fresh plan source started reporter deadline)).Endures moves s)
    (ht : s.controller.isTerminated = true) (hresult : Answered moves result) :
    s.controller.outcomes.Perm ((List.range s.controller.calls.size).map result) := by
  have hheard := hrun.leads.heard ⟨nofun, nofun⟩
  have hall : (s.controller.completions.toList.map Completion.operation).Perm (List.range s.controller.calls.size) :=
    (hrun.placed .init).completions_of_terminated (hrun.leads.orderly .fresh) ht
  have heach : s.controller.outcomes = (s.controller.completions.toList.map Completion.operation).map result := by
    rw [outcomes, List.map_map]
    apply List.map_congr_left
    intro k hk
    obtain ⟨t, how, hmem, ho⟩ := hheard.taken k (Array.mem_toList_iff.mp hk)
    exact ho.trans (hresult t k.operation how hmem)
  rw [heach]
  exact hall.map result

end System

open Controller

/-- What a run that has ended sums up is the tally and the identifiers of the results of its operations, in the order in
which it took them in. -/
theorem Runs.gathered {σ : Type} [Source σ] {config : Config} {source : σ} {listening : Bool} {started : Nat}
    {moves : List (Nat × Move)} {course : Course} {summary : Summary} {result : Nat → Outcome}
    (hrun : Runs config source listening started moves course) (hended : course.ending = .summed summary)
    (hresult : Answered moves result) :
    ∃ (os : List Outcome) (now : Nat),
      os.Perm ((List.range course.calls.size).map result) ∧
      summary.produced = os.filterMap Outcome.made? ∧
      summary.snapshot = { Tally.ofOutcomes os with sent := Count.cap course.calls.size }.snapshot started now
        summary.snapshot.inFlight summary.reportsEmitted := by
  cases hrun with
  | refused => cases hended
  | overflow => cases hended
  | failed => cases hended
  | @ended plan c moves s now hplan hstart hendures ht =>
    cases hended
    obtain ⟨reporter, deadline, _, _, rfl⟩ := start?_inv hstart
    have hgathered : Gathered s.controller := hendures.leads.gathered .fresh
    have hstarted : s.controller.started = started := hendures.leads.frame.started
    refine ⟨s.controller.outcomes, now, hendures.outcomes_perm ht hresult, hgathered.produced, ?_⟩
    show s.controller.tally.snapshot _ _ _ _ = _
    rw [hgathered.tally, hstarted]
    rfl

/-- Two runs with as many operations, whose results are the same up to the order of the operations and up to what
failures leave behind, come to the same figures and to the same identifiers in some order: whatever order their results
were taken in, and whatever else happened in them and in whatever order. -/
theorem summary_does_not_see_order {σ τ : Type} [Source σ] [Source τ] {config config' : Config} {source : σ}
    {source' : τ} {listening listening' : Bool} {started started' : Nat} {moves moves' : List (Nat × Move)}
    {course course' : Course} {summary summary' : Summary} {result result' : Nat → Outcome}
    (hrun : Runs config source listening started moves course)
    (hrun' : Runs config' source' listening' started' moves' course')
    (hended : course.ending = .summed summary) (hended' : course'.ending = .summed summary')
    (hresult : Answered moves result) (hresult' : Answered moves' result')
    (hsame : ((List.range course.calls.size).map fun i => (result i).bare).Perm
      ((List.range course'.calls.size).map fun i => (result' i).bare)) :
    summary.snapshot.sent = summary'.snapshot.sent ∧
    summary.snapshot.completed = summary'.snapshot.completed ∧
    summary.snapshot.failed = summary'.snapshot.failed ∧
    summary.snapshot.average = summary'.snapshot.average ∧
    summary.snapshot.p50 = summary'.snapshot.p50 ∧
    summary.snapshot.p90 = summary'.snapshot.p90 ∧
    summary.snapshot.p99 = summary'.snapshot.p99 ∧
    summary.snapshot.maximum = summary'.snapshot.maximum ∧
    summary.produced.Perm summary'.produced := by
  obtain ⟨os, now, hperm, hproduced, hsnapshot⟩ := hrun.gathered hended hresult
  obtain ⟨os', now', hperm', hproduced', hsnapshot'⟩ := hrun'.gathered hended' hresult'
  have hcalls : course.calls.size = course'.calls.size := by simpa using hsame.length_eq
  have hbare : (os.map Outcome.bare).Perm (os'.map Outcome.bare) := by
    have h := (hperm.map Outcome.bare)
    have h' := (hperm'.map Outcome.bare)
    rw [List.map_map] at h h'
    exact h.trans (hsame.trans h'.symm)
  have htally : Tally.ofOutcomes os = Tally.ofOutcomes os' := Tally.ofOutcomes_perm hbare
  rw [hsnapshot, hsnapshot', htally, hcalls]
  refine ⟨rfl, rfl, rfl, rfl, rfl, rfl, rfl, rfl, ?_⟩
  rw [hproduced, hproduced', ← Outcome.filterMap_bare os, ← Outcome.filterMap_bare os']
  exact hbare.filterMap _

/-- What three operations come to, of which the last fails. -/
private def resultOf (age : Duration) : Nat → Outcome
  | 0 => .made (.ofMillis 3) "x"
  | 1 => .made (.ofMillis 5) "y"
  | _ => .failure age

/-- Results are taken in as they were dispatched, with a report before the last batch; the last operation breaks
down. -/
private def inOrder : List (Nat × Move) :=
  [(0, .tick), (3, .finish 0 (.returned (resultOf .zero 0) .zero)), (4, .receive),
    (5, .finish 1 (.returned (resultOf .zero 1) .zero)), (6, .receive), (7, .report), (8, .tick),
    (9, .finish 2 (.brokeDown .zero)), (10, .receive)]

/-- Results are taken in after the last batch and the other way round; the last operation is cut off. -/
private def reversed (age : Duration) : List (Nat × Move) :=
  [(0, .tick), (1, .tick), (2, .finish 2 (.cutOff age age)), (3, .receive),
    (5, .finish 1 (.returned (resultOf age 1) .zero)), (6, .receive),
    (7, .finish 0 (.returned (resultOf age 0) .zero)), (8, .receive)]

/-- What can be seen of a run of three operations after a list of moves: whether it has ended, how many operations it
dispatched, in which order it took their results in, and the identifiers that these brought. -/
private def seen? (moves : List (Nat × Move)) : Option (Bool × Nat × List Nat × List String) :=
  (start? pairs (KeyList.ofArray #["a", "b", "c"]) true 0).bind fun c =>
    ((System.init c).follow? moves).map fun s =>
      (s.controller.isTerminated, s.controller.calls.size, s.controller.completions.toList.map Completion.operation,
        s.controller.produced.toList)

private lemma runs_of_seen {moves : List (Nat × Move)} {n : Nat} {order : List Nat} {produced : List String}
    (h : seen? moves = some (true, n, order, produced)) :
    ∃ course summary, Runs pairs.toConfig (KeyList.ofArray #["a", "b", "c"]) true 0 moves course ∧
      course.ending = .summed summary ∧ course.calls.size = n ∧
      course.completions.toList.map Completion.operation = order ∧ summary.produced = produced := by
  obtain ⟨c, hstart, h⟩ := Option.bind_eq_some_iff.mp h
  obtain ⟨s, hfollow, hseen⟩ := Option.map_eq_some_iff.mp h
  simp only [Prod.mk.injEq] at hseen
  obtain ⟨ht, hcalls, horder, hproduced⟩ := hseen
  have hplan : pairs.toConfig.plan = .ok pairs := Config.plan_eq_ok_iff.mpr rfl
  have hendures := System.follow?_eq_some_iff.mp hfollow
  exact ⟨_, s.controller.summary 10, .ended hplan hstart hendures ht, rfl, hcalls, horder, hproduced⟩

/-- Two runs of three operations. One takes in their results as they were dispatched, with a report before the last
batch, and the last operation breaks down; the other takes them all in after that batch and the other way round, and
cuts the last operation off. -/
theorem reversed_results_sum_up_alike :
    ∃ (course course' : Course) (summary summary' : Summary),
      course.ending = .summed summary ∧ course'.ending = .summed summary' ∧
      course.completions.toList.map Completion.operation = [0, 1, 2] ∧
      course'.completions.toList.map Completion.operation = [2, 1, 0] ∧
      summary.produced = ["x", "y"] ∧ summary'.produced = ["y", "x"] ∧
      summary.snapshot.average = summary'.snapshot.average ∧ summary.snapshot.p90 = summary'.snapshot.p90 := by
  have hseen : seen? inOrder = some (true, 3, [0, 1, 2], ["x", "y"]) := by decide +kernel
  have hseen' : seen? (reversed (.ofMillis 2)) = some (true, 3, [2, 1, 0], ["y", "x"]) := by decide +kernel
  obtain ⟨course, summary, hrun, hended, hcalls, horder, hproduced⟩ := runs_of_seen hseen
  obtain ⟨course', summary', hrun', hended', hcalls', horder', hproduced'⟩ := runs_of_seen hseen'
  have hanswered : Answered inOrder (resultOf .zero) := by
    intro now operation how h
    simp [inOrder] at h
    obtain ⟨_, rfl, rfl⟩ | ⟨_, rfl, rfl⟩ | ⟨_, rfl, rfl⟩ := h <;> rfl
  have hanswered' : Answered (reversed (.ofMillis 2)) (resultOf (.ofMillis 2)) := by
    intro now operation how h
    simp [reversed] at h
    obtain ⟨_, rfl, rfl⟩ | ⟨_, rfl, rfl⟩ | ⟨_, rfl, rfl⟩ := h <;> rfl
  have hsame : ((List.range course.calls.size).map fun i => (resultOf .zero i).bare).Perm
      ((List.range course'.calls.size).map fun i => (resultOf (.ofMillis 2) i).bare) := by
    rw [hcalls, hcalls']
    exact .of_eq rfl
  obtain ⟨_, _, _, haverage, _, hp90, _⟩ :=
    summary_does_not_see_order hrun hrun' hended hended' hanswered hanswered' hsame
  exact ⟨course, course', summary, summary', hended, hended', horder, horder', hproduced, hproduced', haverage, hp90⟩

end Cadence.Run
