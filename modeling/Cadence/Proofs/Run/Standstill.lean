import Cadence.Proofs.Run.Moves
import Cadence.Run.Loop

/-!
# Standstill

A run stops dispatching once and for all. What it does from then on leaves everything but the results that are still
due as it was (`Still`), whatever happens and in whatever order.

* `Reaction.still`, `step_still`, `Leads.still`: one reaction, one move and any number of moves of a run that has
  stopped.
* `Leads.stops`: the moves of a run that has stopped contain the one in which it did (`Stops`).
* `stop_inv`: in that move the run stops last, after it has dispatched what it drew.
* `Leads.fired`: a run that was interrupted or came to its deadline has stopped.
-/

namespace Cadence.Run

namespace Controller

variable {σ : Type}

/-- From `c` to `d` nothing was drawn, dispatched or reported, and the run did not stop another time. -/
structure Still (c d : Controller σ) : Prop where
  source : d.source = c.source
  calls : d.calls = c.calls
  reports : d.reports = c.reports
  reporter : d.reporter = c.reporter
  sent : d.tally.sent = c.tally.sent
  cause : d.phase.cause? = c.phase.cause?
  stopped : d.stopped = c.stopped

lemma Still.refl (c : Controller σ) : Still c c := ⟨rfl, rfl, rfl, rfl, rfl, rfl, rfl⟩

lemma Still.trans {c d e : Controller σ} (h : Still c d) (h' : Still d e) : Still c e where
  source := h'.source.trans h.source
  calls := h'.calls.trans h.calls
  reports := h'.reports.trans h.reports
  reporter := h'.reporter.trans h.reporter
  sent := h'.sent.trans h.sent
  cause := h'.cause.trans h.cause
  stopped := h'.stopped.trans h.stopped

lemma cause_isSome_iff {p : Phase} : p.cause?.isSome = true ↔ p ≠ .running := by
  cases p <;> simp [Phase.cause?]

lemma Still.not_running {c d : Controller σ} (h : Still c d) (hp : c.phase ≠ .running) : d.phase ≠ .running := by
  rw [← cause_isSome_iff, h.cause, cause_isSome_iff]
  exact hp

lemma Still.settle {c d : Controller σ} (h : Still c d) : Still c d.settle :=
  h.trans ⟨rfl, rfl, rfl, rfl, rfl, settle_cause d, rfl⟩

lemma Still.absorb (c : Controller σ) (now operation : Nat) (o : Outcome) (inFlight : InFlight) :
    Still c (c.absorb now operation o inFlight) := by
  refine ⟨rfl, rfl, rfl, rfl, ?_, rfl, rfl⟩
  simp only [Controller.absorb, Tally.record]
  split <;> rfl

/-- To anything but a result only a run that dispatches reacts. -/
lemma Reaction.running_before [Source σ] {c d : Controller σ} {now e} (h : Reaction c now e d)
    (he : ∀ operation o, e ≠ .completion operation o) : c.phase = .running := by
  cases h with
  | interrupt hp => exact hp
  | completion => exact absurd rfl (he _ _)
  | deadline hp => exact hp
  | report hp => exact hp
  | tick hp => exact hp
  | lastTick hp => exact hp

/-- Once a run has stopped, every reaction is to stand still. -/
lemma Reaction.still [Source σ] {c d : Controller σ} {now e} (h : Reaction c now e d) (hp : c.phase ≠ .running) :
    Still c d.settle := by
  -- a result is all that a run still reacts to once it has stopped
  cases e with
  | completion operation o =>
    cases h with
    | completion => exact (Still.absorb c now _ _ _).settle
  | _ => exact absurd (h.running_before nofun) hp

/-- A run that is stopped has stopped, ended or not. -/
lemma settle_stop_not_running {c : Controller σ} {now cause} (hp : c.phase = .running) :
    (c.stop now cause).settle.phase ≠ .running := by
  intro h
  rw [settle_running, stop_of_running hp] at h
  cases h

/-- After an interrupt, or the deadline of a run that has one, no run dispatches. -/
lemma fired_stops [Source σ] {c d : Controller σ} {now e} (hs : c.step now e = .ok d)
    (he : e = .interrupt ∨ e = .deadline ∧ c.deadline.isSome = true) : d.phase ≠ .running := by
  obtain ⟨hn, rfl⟩ | ⟨d, hr, rfl⟩ := step_inv hs
  · -- it is ignored only by a run that has stopped before
    intro hp
    obtain rfl | ⟨rfl, hd⟩ := he
    · simp [accepts, hp, Phase.isRunning] at hn
    · simp [accepts, hp, hd, Phase.isRunning] at hn
  · obtain rfl | ⟨rfl, _⟩ := he
    · cases hr with
      | interrupt hp => exact settle_stop_not_running hp
    · cases hr with
      | deadline hp => exact settle_stop_not_running hp

/-- Once a run has stopped, it polls nothing but the results. -/
lemma polled_of_stopped {c : Controller σ} (hp : c.phase ≠ .running) {ready : Branch → Bool} {b : Branch}
    (h : b ∈ c.polled ready) : b = .results := by
  have hw := waitsOn_of_mem_polled h
  cases b with
  | results => rfl
  | _ => exact absurd (Phase.isRunning_iff.mp hw) hp

end Controller

namespace System
open Controller

variable {σ : Type} [Source σ]

lemma step_still {s t : System σ} {now m} (hs : s.step now m = .ok t) (hp : s.controller.phase ≠ .running) :
    Still s.controller t.controller := by
  cases step_inv hs with
  | same => exact .refl _
  | finish => exact .refl _
  | receive ht _ hf => exact Reaction.still (.completion ht hf) hp
  | signal _ hr => exact hr.still hp

/-- Once a run has stopped, it stands still. -/
theorem Leads.still {s t : System σ} {moves} (hrun : s.Leads moves t) (hp : s.controller.phase ≠ .running) :
    Still s.controller t.controller := by
  induction hrun with
  | nil => exact .refl _
  | snoc _ hs ih => exact ih.trans (step_still hs (ih.not_running hp))

/-- A run that dispatches after a move did so before. -/
lemma running_of_step {s t : System σ} {now m} (hs : s.step now m = .ok t) (ht : t.controller.phase = .running) :
    s.controller.phase = .running := by
  by_contra hp
  exact (step_still hs hp).not_running hp ht

/-- A run that was interrupted, or came to its deadline, has stopped. -/
lemma Leads.fired {s t : System σ} {moves} (hrun : s.Leads moves t) {i m} (hm : (i, m) ∈ moves)
    (hf : m = .interrupt ∨ m = .deadline ∧ s.controller.deadline.isSome = true) : t.controller.phase ≠ .running := by
  induction hrun with
  | nil => cases hm
  | @snoc moves t u now m' hrun hs ih =>
    obtain hm | hm := List.mem_append.mp hm
    · exact (step_still hs (ih hm)).not_running (ih hm)
    · obtain ⟨rfl, rfl⟩ := Prod.mk.inj (List.mem_singleton.mp hm)
      -- the deadline that counts is the one the run began with
      obtain ⟨e, he, hsig⟩ : ∃ e, (e = .interrupt ∨ e = .deadline ∧ t.controller.deadline.isSome = true) ∧
          t.signal i e = .ok u := by
        obtain rfl | ⟨rfl, hd⟩ := hf
        · exact ⟨_, .inl rfl, hs⟩
        · exact ⟨_, .inr ⟨rfl, hrun.frame.deadline ▸ hd⟩, hs⟩
      unfold signal at hsig
      cases hc : t.controller.step i e with
      | error f => rw [hc] at hsig; cases hsig
      | ok c =>
        rw [hc] at hsig
        cases hsig
        exact fired_stops hc he

/-- Nothing changes a run that has ended. -/
lemma step_of_terminated {s t : System σ} {now m} (hs : s.step now m = .ok t)
    (ht : s.controller.isTerminated = true) : t.controller = s.controller := by
  obtain ⟨cause, hp⟩ := isTerminated_iff.mp ht
  cases step_inv hs with
  | same => rfl
  | finish => rfl
  | receive hn =>
    rw [ht] at hn
    cases hn
  | signal he hr =>
    have hrun := hr.running_before he
    rw [hp] at hrun
    cases hrun

/-- The moves lead from `s` to `t`, and the run stops dispatching in the one that leads from `u` to `v`. -/
inductive Stops (s : System σ) : List (Nat × Move) → System σ → System σ → System σ → Prop where
  | intro {first rest now m u v t} :
    s.Leads first u →
    u.controller.phase = .running →
    u.step now m = .ok v →
    v.controller.phase ≠ .running →
    v.Leads rest t →
    Stops s (first ++ (now, m) :: rest) u v t

/-- A run that has stopped did so in one of its moves. -/
theorem Leads.stops {s t : System σ} {moves} (hrun : s.Leads moves t) (hs : s.controller.phase = .running)
    (ht : t.controller.phase ≠ .running) : ∃ u v, s.Stops moves u v t := by
  induction hrun with
  | nil => exact absurd hs ht
  | @snoc moves t w now m hrun hstep ih =>
    -- either the last move is the one, or it was among those before
    by_cases hp : t.controller.phase = .running
    · exact ⟨t, w, .intro hrun hp hstep ht .nil⟩
    · obtain ⟨u, v, hstops⟩ := ih hp
      cases hstops with
      | intro hfirst hu hm hv hrest =>
        refine ⟨u, v, ?_⟩
        rw [List.append_assoc]
        exact .intro hfirst hu hm hv (.snoc hrest hstep)

/-- In the move in which a run stops it does so last: before, it dispatches what it drew, and then it still runs. -/
lemma stop_inv {u v : System σ} {now m} (hu : u.controller.phase = .running) (hs : u.step now m = .ok v)
    (hv : v.controller.phase ≠ .running) :
    ∃ (d : Controller σ) (cause : StopCause), d.phase = .running ∧ d.notes = u.controller.notes ∧
      d.completions = u.controller.completions ∧ v.controller = (d.stop now cause).settle := by
  -- a move after which the run would still dispatch is not the one in which it stops
  cases step_inv hs with
  | same => exact absurd hu hv
  | finish => exact absurd hu hv
  | @receive d rest inFlight =>
    have hp : (u.taken now d rest inFlight).controller.phase = .running := settle_running.mpr hu
    exact absurd hp hv
  | signal he hr =>
    cases hr with
    | interrupt hp => exact ⟨_, _, hp, rfl, rfl, rfl⟩
    | completion => exact absurd rfl (he _ _)
    | deadline hp => exact ⟨_, _, hp, rfl, rfl, rfl⟩
    | report hp => exact absurd (settle_running.mpr hp) hv
    | tick hp => exact absurd (settle_running.mpr (feed_running hp)) hv
    | lastTick hp => exact ⟨_, _, feed_running hp, by rw [feed_eq], by rw [feed_eq], rfl⟩

end System
end Cadence.Run
