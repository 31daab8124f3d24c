import Cadence.Proofs.Run.Moves

/-!
# The counts of a run

Every count of a run goes with what it counts, as far as 64 bits go (`Counted`), and its reports are numbered from one
on (`Numbered`). No reaction breaks this, so it holds of every state of a run (`Leads.counted`, `Leads.numbered`).
-/

namespace Cadence.Run

namespace Controller

variable {σ : Type}

/-- The tally counts the operations that were dispatched, and the results that were taken in. -/
structure Counted (c : Controller σ) : Prop where
  sent : c.tally.sent = Count.cap c.calls.size
  completed : c.tally.completed = Count.cap (c.completions.toList.countP (·.outcome.succeeded))
  failed : c.tally.failed = Count.cap (c.completions.toList.countP (!·.outcome.succeeded))

/-- The reports are counted, and each carries its number. -/
structure Numbered (c : Controller σ) : Prop where
  emitted : c.reporter.emitted = Count.cap c.reports.size
  tick : ∀ k r, c.reports[k]? = some r → r.tick = Count.cap (k + 1)

lemma Counted.fresh {plan : Plan} {source : σ} {started reporter deadline} :
    Counted (fresh plan source started reporter deadline) := ⟨rfl, rfl, rfl⟩

lemma Counted.settle {c : Controller σ} (h : Counted c) : Counted c.settle := ⟨h.sent, h.completed, h.failed⟩

lemma Counted.stop {c : Controller σ} {now cause} (h : Counted c) (hp : c.phase = .running) :
    Counted (c.stop now cause) := by
  rw [stop_of_running hp]
  exact ⟨h.sent, h.completed, h.failed⟩

/-- A batch that is dispatched is counted item by item. -/
lemma Counted.feed {c : Controller σ} {now batch source} (h : Counted c) : Counted (c.feed now batch source) := by
  rw [feed_eq, foldl_tally h.sent]
  refine ⟨?_, h.completed, h.failed⟩
  simp only [Array.size_append, Array.size_map, Array.length_toList]

lemma Counted.absorb {c : Controller σ} {now operation o inFlight} (h : Counted c) :
    Counted (c.absorb now operation o inFlight) := by
  cases ho : o.succeeded with
  | true =>
    refine ⟨?_, ?_, ?_⟩
    · simpa [Controller.absorb, Tally.record, ho] using h.sent
    · simp [Controller.absorb, Tally.record, ho, h.completed, Count.next_cap]
    · simpa [Controller.absorb, Tally.record, ho] using h.failed
  | false =>
    refine ⟨?_, ?_, ?_⟩
    · simpa [Controller.absorb, Tally.record, ho] using h.sent
    · simpa [Controller.absorb, Tally.record, ho] using h.completed
    · simp [Controller.absorb, Tally.record, ho, h.failed, Count.next_cap]

lemma Counted.reaction [Source σ] {c d : Controller σ} {now e} (h : Counted c) (hr : Reaction c now e d) :
    Counted d.settle := by
  apply Counted.settle
  cases hr with
  | interrupt hp => exact h.stop hp
  | completion => exact h.absorb
  | deadline hp => exact h.stop hp
  | report => exact ⟨h.sent, h.completed, h.failed⟩
  | tick => exact h.feed
  | lastTick hp => exact h.feed.stop (feed_running hp)

lemma Numbered.fresh {plan : Plan} {source : σ} {every : Duration} {start started : Nat} {listening : Bool}
    {reporter deadline} (h : Reporter.create? every start listening = some reporter) :
    Numbered (fresh plan source started reporter deadline) := by
  obtain ⟨first, _, rfl⟩ := Option.map_eq_some_iff.mp h
  exact ⟨rfl, nofun⟩

lemma Numbered.of_same {c d : Controller σ} (h : Numbered c) (hreports : d.reports = c.reports)
    (hemitted : d.reporter.emitted = c.reporter.emitted) : Numbered d where
  emitted := by rw [hemitted, hreports]; exact h.emitted
  tick := by rw [hreports]; exact h.tick

/-- A report carries the number after the last one. -/
lemma Numbered.report {c : Controller σ} {now} (h : Numbered c) : Numbered (c.report now) := by
  have hnext : Count.next c.reporter.emitted = Count.cap (c.reports.size + 1) := by
    rw [h.emitted, Count.next_cap]
  constructor
  · simpa [Controller.report, Reporter.emit] using hnext
  · intro k r hk
    simp only [Controller.report, Array.getElem?_push] at hk
    split at hk
    · next he =>
      cases hk
      rw [he]
      exact hnext
    · exact h.tick k r hk

lemma Numbered.reaction [Source σ] {c d : Controller σ} {now e} (h : Numbered c) (hr : Reaction c now e d) :
    Numbered d.settle := by
  cases hr with
  | interrupt hp => rw [stop_of_running hp]; exact h.of_same rfl rfl
  | completion => exact h.of_same rfl rfl
  | deadline hp => rw [stop_of_running hp]; exact h.of_same rfl rfl
  | report => exact h.report.of_same rfl rfl
  | tick => rw [feed_eq]; exact h.of_same rfl rfl
  | lastTick hp => rw [stop_of_running (feed_running hp), feed_eq]; exact h.of_same rfl rfl

end Controller

namespace System
open Controller

variable {σ : Type} [Source σ]

lemma Leads.counted {s t : System σ} {moves} (hrun : s.Leads moves t) (h : Counted s.controller) :
    Counted t.controller :=
  hrun.invariant h fun _ _ _ _ hc hr => hc.reaction hr

lemma Leads.numbered {s t : System σ} {moves} (hrun : s.Leads moves t) (h : Numbered s.controller) :
    Numbered t.controller :=
  hrun.invariant h fun _ _ _ _ hn hr => hn.reaction hr

end System
end Cadence.Run
