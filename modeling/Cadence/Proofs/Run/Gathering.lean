import Cadence.Proofs.Run.Counts
import Cadence.Proofs.Tally

/-!
# What a run gathers

The tally of a run and the identifiers that it made are those of the results that it took in, one after the other
(`Gathered`), however these came between ticks, reports and the end of dispatch (`Leads.gathered`).
-/

namespace Cadence.Run

/-- The identifier that a result brought, if it is a success that made one. -/
def Completion.made? (k : Completion) : Option String :=
  if k.outcome.succeeded then k.outcome.produced else none

namespace Controller

variable {σ : Type}

/-- The outcomes of the results that were taken in, in order. -/
def outcomes (c : Controller σ) : List Outcome := c.completions.toList.map Completion.outcome

/-- The tally and the identifiers of a run are those of the results that it took in. -/
structure Gathered (c : Controller σ) : Prop where
  tally : c.tally = { Tally.ofOutcomes c.outcomes with sent := Count.cap c.calls.size }
  produced : c.produced.toList = c.outcomes.filterMap Outcome.made?

/-- The identifiers that were made, with the one of another result. -/
lemma produced_absorb (c : Controller σ) (now operation : Nat) (o : Outcome) (inFlight : InFlight) :
    (c.absorb now operation o inFlight).produced.toList
      = c.produced.toList ++ (Completion.made? ⟨now, operation, o⟩).toList := by
  unfold absorb Completion.made?
  cases hs : o.succeeded with
  | false => simp
  | true =>
    cases hp : o.produced with
    | none => simp
    | some id => simp

lemma outcomes_absorb (c : Controller σ) (now operation : Nat) (o : Outcome) (inFlight : InFlight) :
    (c.absorb now operation o inFlight).outcomes = c.outcomes ++ [o] := by
  simp [outcomes, absorb]

lemma Gathered.fresh {plan : Plan} {source : σ} {started reporter deadline} :
    Gathered (fresh plan source started reporter deadline) := ⟨rfl, rfl⟩

/-- What neither dispatches nor takes in a result gathers nothing. -/
lemma Gathered.of_same {c d : Controller σ} (h : Gathered c) (htally : d.tally = c.tally)
    (hcalls : d.calls = c.calls) (hcompletions : d.completions = c.completions) (hproduced : d.produced = c.produced) :
    Gathered d := by
  have ho : d.outcomes = c.outcomes := by rw [outcomes, hcompletions, outcomes]
  refine ⟨?_, ?_⟩
  · rw [htally, ho, hcalls]
    exact h.tally
  · rw [hproduced, ho]
    exact h.produced

lemma Gathered.stop {c : Controller σ} {now cause} (h : Gathered c) (hp : c.phase = .running) :
    Gathered (c.stop now cause) := by
  rw [stop_of_running hp]
  exact h.of_same rfl rfl rfl rfl

/-- A batch that is dispatched is counted, and adds nothing else. -/
lemma Gathered.feed {c : Controller σ} {now batch source} (h : Gathered c) : Gathered (c.feed now batch source) := by
  have hsent : c.tally.sent = Count.cap c.calls.size := by rw [h.tally]
  rw [feed_eq, foldl_tally hsent]
  refine ⟨?_, h.produced⟩
  dsimp only
  rw [h.tally]
  simp [outcomes]

/-- A result that is taken in is recorded after those before it. -/
lemma Gathered.absorb {c : Controller σ} {now operation o inFlight} (h : Gathered c) :
    Gathered (c.absorb now operation o inFlight) := by
  refine ⟨?_, ?_⟩
  · rw [outcomes_absorb, Tally.ofOutcomes_append, ← Tally.record_sent]
    show c.tally.record o = _
    rw [h.tally]
    rfl
  · rw [outcomes_absorb, produced_absorb, h.produced, List.filterMap_append]
    show _ ++ o.made?.toList = _
    cases hm : o.made? <;> simp [hm]

lemma Gathered.reaction [Source σ] {c d : Controller σ} {now e} (h : Gathered c) (hr : Reaction c now e d) :
    Gathered d.settle := by
  refine Gathered.of_same (c := d) ?_ rfl rfl rfl rfl
  cases hr with
  | interrupt hp => exact h.stop hp
  | completion => exact h.absorb
  | deadline hp => exact h.stop hp
  | report => exact h.of_same rfl rfl rfl rfl
  | tick => exact h.feed
  | lastTick hp => exact h.feed.stop (feed_running hp)

end Controller

namespace System
open Controller

variable {σ : Type} [Source σ]

/-- Whatever happens in a run and in whatever order, its tally and its identifiers are those of its results. -/
theorem Leads.gathered {s t : System σ} {moves} (hrun : s.Leads moves t) (h : Gathered s.controller) :
    Gathered t.controller :=
  hrun.invariant h fun _ _ _ _ hg hr => hg.reaction hr

end System
end Cadence.Run
