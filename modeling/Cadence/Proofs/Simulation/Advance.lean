import Cadence.Proofs.Run.Inversion
import Cadence.Run.Loop
import Cadence.Run.Simulation

/-!
# Inversion of a small step

What one small step can do to a run on the virtual clock. `Next` says which event comes next at the instant, and
`Quiet` that none does; a small step that continues is an `Advance` (`advance_inv`). `Passes` counts small steps, and
`run_inv` says how a run of at most so many of them comes out.

* `nextEvent_branch`: at every instant the loop of the run chooses the branch on which the next event comes.
-/

namespace Cadence.Run

/-- The run that a small step came to. -/
def Progress.state {σ : Type} : Progress σ → Simulation σ
  | continues s => s
  | faulted s _ => s
  | ended s => s
  | stalled s => s

namespace Simulation
open Controller

variable {σ : Type}

/-- The event that comes next at the instant. -/
inductive Next (env : Environment) (s : Simulation σ) : Event → Prop where
  | interrupt :
    s.controller.phase = .running →
    reached s.now env.interrupt = true →
    Next env s .interrupt
  | completion {p rest} :
    s.ready = p :: rest →
    Next env s (.completion p.operation p.outcome)
  | deadline :
    s.controller.phase = .running →
    reached s.now env.interrupt = false →
    s.ready = [] →
    reached s.now s.controller.deadline = true →
    Next env s .deadline
  | report :
    s.controller.phase = .running →
    reached s.now env.interrupt = false →
    s.ready = [] →
    reached s.now s.controller.deadline = false →
    s.controller.reporter.timer.isDue s.now = true →
    Next env s .report
  | tick :
    s.controller.phase = .running →
    reached s.now env.interrupt = false →
    s.ready = [] →
    reached s.now s.controller.deadline = false →
    s.controller.reporter.timer.isDue s.now = false →
    s.controller.ticker.isDue s.now = true →
    Next env s .tick

/-- Whether a branch of the loop is ready at the instant. -/
def isReady (env : Environment) (s : Simulation σ) : Branch → Bool
  | .interrupt => reached s.now env.interrupt
  | .results => !s.ready.isEmpty
  | .deadline => reached s.now s.controller.deadline
  | .report => s.controller.reporter.timer.isDue s.now
  | .tick => s.controller.ticker.isDue s.now

/-- Nothing is left to react to at the instant. -/
structure Quiet (env : Environment) (s : Simulation σ) : Prop where
  ready : s.ready = []
  interrupt : s.controller.phase = .running → reached s.now env.interrupt = false
  deadline : s.controller.phase = .running → reached s.now s.controller.deadline = false
  report : s.controller.phase = .running → s.controller.reporter.timer.isDue s.now = false
  tick : s.controller.phase = .running → s.controller.ticker.isDue s.now = false

/-- The run after its controller reacted to an event and came to `c`. -/
def reacted (s : Simulation σ) (e : Event) (c : Controller σ) : Simulation σ :=
  { s with
    controller := c
    ready := match e with
      | .completion _ _ => s.ready.tail
      | _ => s.ready }

/-- What a small step makes of a run. -/
inductive Advance [Source σ] (env : Environment) (s : Simulation σ) : Simulation σ → Prop where
  | event {e d} :
    s.controller.isTerminated = false →
    Next env s e →
    s.controller.step s.now e = .ok d.settle →
    Reaction s.controller s.now e d →
    Advance env s (s.reacted e d.settle)
  | deliver :
    s.controller.isTerminated = false →
    Quiet env s →
    s.hasDeliveries = true →
    Advance env s (s.deliver env)
  | jump {t} :
    s.controller.isTerminated = false →
    Quiet env s →
    s.hasDeliveries = false →
    (s.timers env).min? = some t →
    Advance env s { s with now := max s.now t }

/-- So many small steps lead from one state to another. -/
inductive Passes [Source σ] (env : Environment) (s : Simulation σ) : Nat → Simulation σ → Prop where
  | zero : Passes env s 0 s
  | succ {n t u} : Passes env s n t → t.advance env = .continues u → Passes env s (n + 1) u

/-- The loop waits on everything while the run dispatches, and on results only from then on. -/
lemma branches_eq {c : Controller σ} (ht : c.isTerminated = false) :
    c.branches = if c.phase.isRunning then Branch.inOrder else [.results] := by
  cases hr : c.phase.isRunning <;> simp [branches, Branch.inOrder, waitsOn, ht, hr]

/-- The event that comes next is on the branch that the loop chooses. -/
theorem nextEvent_branch {env : Environment} {s : Simulation σ} (ht : s.controller.isTerminated = false) :
    (s.nextEvent env).map Event.branch = s.controller.chosen? (s.isReady env) := by
  have hw : s.isReady env .results = !s.ready.isEmpty := rfl
  rw [chosen?, branches_eq ht]
  unfold nextEvent
  cases s.controller.phase.isRunning with
  | false =>
    cases hready : s.ready with
    | nil => simp [hw, hready]
    | cons p rest => simp [hw, hready, Event.branch]
  | true =>
    have hi : s.isReady env .interrupt = reached s.now env.interrupt := rfl
    have hd : s.isReady env .deadline = reached s.now s.controller.deadline := rfl
    have hq : s.isReady env .report = s.controller.reporter.timer.isDue s.now := rfl
    have hk : s.isReady env .tick = s.controller.ticker.isDue s.now := rfl
    generalize s.isReady env = ready at *
    rw [← hi, ← hd, ← hq, ← hk]
    -- one case per branch that may be the first one that is ready
    cases h1 : ready .interrupt with
    | true => simp [Branch.inOrder, h1, Event.branch]
    | false =>
      cases hready : s.ready with
      | cons p rest => simp [Branch.inOrder, h1, hw, hready, Event.branch]
      | nil =>
        cases h2 : ready .deadline with
        | true => simp [Branch.inOrder, h1, hw, hready, h2, Event.branch]
        | false =>
          cases h3 : ready .report with
          | true => simp [Branch.inOrder, h1, hw, hready, h2, h3, Event.branch]
          | false => cases h4 : ready .tick <;> simp [Branch.inOrder, h1, hw, hready, h2, h3, h4, Event.branch]

/-- An event that is told to be next is next. -/
lemma nextEvent_inv {env : Environment} {s : Simulation σ} {e} (h : s.nextEvent env = some e) : Next env s e := by
  unfold nextEvent at h
  simp only [Bool.and_eq_true, Phase.isRunning_iff] at h
  split at h
  · next hi => cases h; exact .interrupt hi.1 hi.2
  · next hi =>
    have hint : s.controller.phase = .running → reached s.now env.interrupt = false :=
      fun hp => Bool.eq_false_iff.mpr fun ht => hi ⟨hp, ht⟩
    split at h
    · next hr => cases h; exact .completion hr
    · next hr =>
      split at h
      · next hd => cases h; exact .deadline hd.1 (hint hd.1) hr hd.2
      · next hd =>
        have hdead : s.controller.phase = .running → reached s.now s.controller.deadline = false :=
          fun hp => Bool.eq_false_iff.mpr fun ht => hd ⟨hp, ht⟩
        split at h
        · next hq => cases h; exact .report hq.1 (hint hq.1) hr (hdead hq.1) hq.2
        · next hq =>
          have hrep : s.controller.phase = .running → s.controller.reporter.timer.isDue s.now = false :=
            fun hp => Bool.eq_false_iff.mpr fun ht => hq ⟨hp, ht⟩
          split at h
          · next ht => cases h; exact .tick ht.1 (hint ht.1) hr (hdead ht.1) (hrep ht.1) ht.2
          · cases h

/-- If no event is next, nothing is left to react to. -/
lemma quiet_of_nextEvent {env : Environment} {s : Simulation σ} (h : s.nextEvent env = none) : Quiet env s := by
  unfold nextEvent at h
  simp only [Bool.and_eq_true, Phase.isRunning_iff] at h
  split at h
  · cases h
  · next hi =>
    split at h
    · cases h
    · next hr =>
      split at h
      · cases h
      · next hd =>
        split at h
        · cases h
        · next hq =>
          split at h
          · cases h
          · next ht =>
            refine ⟨hr, ?_, ?_, ?_, ?_⟩
            · exact fun hp => Bool.eq_false_iff.mpr fun hx => hi ⟨hp, hx⟩
            · exact fun hp => Bool.eq_false_iff.mpr fun hx => hd ⟨hp, hx⟩
            · exact fun hp => Bool.eq_false_iff.mpr fun hx => hq ⟨hp, hx⟩
            · exact fun hp => Bool.eq_false_iff.mpr fun hx => ht ⟨hp, hx⟩

lemma Next.accepts {env : Environment} {s : Simulation σ} {e} (h : Next env s e)
    (ht : s.controller.isTerminated = false) : s.controller.accepts e = true := by
  cases h with
  | completion => simp [accepts_completion, ht]
  | deadline hp _ _ hd =>
    have hs : s.controller.deadline.isSome = true := by
      unfold reached at hd
      split at hd
      · next heq => rw [heq]; rfl
      · cases hd
    exact Bool.and_eq_true_iff.mpr ⟨Phase.isRunning_iff.mpr hp, hs⟩
  | interrupt hp => exact Phase.isRunning_iff.mpr hp
  | report hp => exact Phase.isRunning_iff.mpr hp
  | tick hp => exact Phase.isRunning_iff.mpr hp

/-- A small step that continues is an advance. -/
theorem advance_inv [Source σ] {env : Environment} {s t : Simulation σ} (h : s.advance env = .continues t) :
    Advance env s t := by
  unfold advance at h
  split at h
  · cases h
  · next ht =>
    have ht : s.controller.isTerminated = false := Bool.eq_false_iff.mpr ht
    split at h
    · next e he =>
      have hn := nextEvent_inv he
      split at h
      · cases h
      · next c hc =>
        cases h
        obtain ⟨ha, _⟩ | ⟨d, hr, rfl⟩ := step_inv hc
        · rw [hn.accepts ht] at ha
          cases ha
        · exact .event ht hn hc hr
    · next he =>
      have hq := quiet_of_nextEvent he
      split at h
      · next hd => cases h; exact .deliver ht hq hd
      · next hd =>
        split at h
        · next t hm => cases h; exact .jump ht hq (Bool.eq_false_iff.mpr hd) hm
        · cases h

/-- A run ends only once its controller has. -/
lemma advance_ended [Source σ] {env : Environment} {s t : Simulation σ} (h : s.advance env = .ended t) :
    s = t ∧ s.controller.isTerminated = true := by
  unfold advance at h
  split at h
  · next ht => cases h; exact ⟨rfl, ht⟩
  · split at h
    · split at h <;> cases h
    · split at h
      · cases h
      · split at h <;> cases h

/-- A run fails only in a step of its controller. -/
lemma advance_faulted [Source σ] {env : Environment} {s t : Simulation σ} {f}
    (h : s.advance env = .faulted t f) :
    s = t ∧ ∃ e, Next env s e ∧ s.controller.step s.now e = .error f := by
  unfold advance at h
  split at h
  · cases h
  · split at h
    · next e he =>
      split at h
      · next hc => cases h; exact ⟨rfl, e, nextEvent_inv he, hc⟩
      · cases h
    · split at h
      · cases h
      · split at h <;> cases h

/-- A run stalls only if there is nothing left to wait for. -/
lemma advance_stalled [Source σ] {env : Environment} {s t : Simulation σ} (h : s.advance env = .stalled t) :
    s = t ∧ s.controller.isTerminated = false ∧ Quiet env s ∧ s.hasDeliveries = false ∧ s.timers env = [] := by
  unfold advance at h
  split at h
  · cases h
  · next ht =>
    split at h
    · split at h <;> cases h
    · next he =>
      split at h
      · cases h
      · next hd =>
        split at h
        · cases h
        · next hm =>
          cases h
          exact ⟨rfl, Bool.eq_false_iff.mpr ht, quiet_of_nextEvent he, Bool.eq_false_iff.mpr hd,
            List.min?_eq_none_iff.mp hm⟩

/-- A small step that does not continue leaves the run as it is. -/
lemma advance_state [Source σ] {env : Environment} {s : Simulation σ}
    (h : ∀ t, s.advance env ≠ .continues t) : (s.advance env).state = s := by
  cases ha : s.advance env with
  | continues t => exact absurd ha (h t)
  | faulted t f => exact (advance_faulted ha).1.symm
  | ended t => exact (advance_ended ha).1.symm
  | stalled t => exact (advance_stalled ha).1.symm

/-- A small step before others is one more. -/
lemma Passes.cons [Source σ] {env : Environment} {s t u : Simulation σ} {n}
    (hs : s.advance env = .continues t) (h : Passes env t n u) : Passes env s (n + 1) u := by
  induction h with
  | zero => exact .succ .zero hs
  | succ _ hu ih => exact .succ ih hu

/-- What no reaction breaks holds all along a run on the virtual clock. -/
theorem Passes.invariant [Source σ] {env : Environment} {P : Controller σ → Prop} {s t : Simulation σ} {n}
    (hrun : Passes env s n t) (h : P s.controller)
    (hreaction : ∀ c now e d, P c → Reaction c now e d → P d.settle) : P t.controller := by
  induction hrun with
  | zero => exact h
  | succ _ ha ih =>
    cases advance_inv ha with
    | event _ _ _ hr => exact hreaction _ _ _ _ ih hr
    | deliver => exact ih
    | jump => exact ih

/-- A run of at most `n` small steps took them all, or fewer after which there was no other. -/
theorem run_inv [Source σ] (env : Environment) (s : Simulation σ) (n : Nat) :
    ∃ k t, k ≤ n ∧ Passes env s k t ∧ (s.run env n).state = t ∧
      ((k = n ∧ s.run env n = .continues t) ∨
        (s.run env n = t.advance env ∧ ∀ u, t.advance env ≠ .continues u)) := by
  -- the fuel is used up from the first step on, while `Passes` grows at its end
  induction n generalizing s with
  | zero => exact ⟨0, s, Nat.le_refl 0, .zero, rfl, .inl ⟨rfl, rfl⟩⟩
  | succ n ih =>
    by_cases hc : ∃ t, s.advance env = .continues t
    · obtain ⟨t, ha⟩ := hc
      have hrun : s.run env (n + 1) = t.run env n := by rw [run, ha]
      obtain ⟨k, u, hk, hp, hst, hcase⟩ := ih t
      rw [hrun]
      refine ⟨k + 1, u, Nat.succ_le_succ hk, .cons ha hp, hst, ?_⟩
      obtain ⟨rfl, hc⟩ | hc := hcase
      · exact .inl ⟨rfl, hc⟩
      · exact .inr hc
    · have hc : ∀ t, s.advance env ≠ .continues t := fun t ha => hc ⟨t, ha⟩
      have hrun : s.run env (n + 1) = s.advance env := by
        unfold run
        split
        · next t ha => exact absurd ha (hc t)
        · rfl
      rw [hrun]
      exact ⟨0, s, Nat.zero_le _, .zero, advance_state hc, .inr ⟨rfl, hc⟩⟩

end Simulation
end Cadence.Run
