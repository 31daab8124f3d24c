import Cadence.Proofs.Simulation.Advance

/-!
# Punctuality

On the virtual clock nothing is ever late. As long as a run dispatches, the clock does not pass the first millisecond
at which one of its timers may fire, and no operation delivers late (`Punctual`); so whatever fires does so exactly
then (`Punctual.interrupt_now` and the lemmas after it).
-/

namespace Cadence.Run

lemma le_endOf (start : Nat) (length : Duration) : start ≤ endOf start length := by
  unfold endOf
  split
  · exact Nat.le_refl _
  · exact Nat.le_trans (Clock.le_after start length) (Clock.le_ceilMs _)

/-- No operation delivers before it begins. -/
lemma Behaviour.le_delivery (b : Behaviour) (start : Nat) (timeout : Duration) :
    start ≤ (b.delivery start timeout).1 := by
  have hcut : start ≤ Clock.ceilMs (Clock.after start timeout) :=
    Nat.le_trans (Clock.le_after start timeout) (Clock.le_ceilMs _)
  unfold delivery
  cases b with
  | finishes length o =>
    dsimp only
    split
    · exact le_endOf start length
    · exact hcut
  | breaks length =>
    dsimp only
    split
    · exact le_endOf start length
    · exact hcut
  | hangs => exact hcut

namespace Simulation
open Controller

variable {σ : Type}

/-- No timer is passed while the run dispatches, and no delivery at all. -/
structure Punctual (env : Environment) (s : Simulation σ) : Prop where
  interrupt : s.controller.phase = .running → ∀ i, env.interrupt = some i → s.now ≤ Clock.ceilMs i
  deadline : s.controller.phase = .running → ∀ d, s.controller.deadline = some d → s.now ≤ Clock.ceilMs d
  report : s.controller.phase = .running → s.now ≤ Clock.ceilMs s.controller.reporter.timer.deadline
  tick : s.controller.phase = .running → s.now ≤ Clock.ceilMs s.controller.ticker.deadline
  busy : ∀ p ∈ s.busy, s.now ≤ p.due
  ready : ∀ p ∈ s.ready, p.due = s.now

/-- A timer fires at an instant that is not before the first millisecond at which it may. -/
lemma reached_iff {now : Nat} {deadline : Option Nat} :
    reached now deadline = true ↔ ∃ d, deadline = some d ∧ Clock.ceilMs d ≤ now := by
  cases deadline with
  | none => simp [reached]
  | some d => simp [reached]

/-- A timer that does not fire lies ahead. -/
lemma lt_of_not_reached {now d : Nat} {deadline : Option Nat} (h : reached now deadline = false)
    (hd : deadline = some d) : now < Clock.ceilMs d := by
  apply Nat.lt_of_not_le
  intro hle
  rw [reached_iff.mpr ⟨d, hd, hle⟩] at h
  cases h

/-- A punctual run is interrupted exactly when it has to be. -/
lemma Punctual.interrupt_now {env : Environment} {s : Simulation σ} (h : Punctual env s)
    (hp : s.controller.phase = .running) (hr : reached s.now env.interrupt = true) :
    ∃ i, env.interrupt = some i ∧ s.now = Clock.ceilMs i := by
  obtain ⟨i, hi, hle⟩ := reached_iff.mp hr
  exact ⟨i, hi, Nat.le_antisymm (h.interrupt hp i hi) hle⟩

/-- A punctual run reaches its deadline exactly then. -/
lemma Punctual.deadline_now {env : Environment} {s : Simulation σ} (h : Punctual env s)
    (hp : s.controller.phase = .running) (hr : reached s.now s.controller.deadline = true) :
    ∃ d, s.controller.deadline = some d ∧ s.now = Clock.ceilMs d := by
  obtain ⟨d, hd, hle⟩ := reached_iff.mp hr
  exact ⟨d, hd, Nat.le_antisymm (h.deadline hp d hd) hle⟩

/-- A punctual run reports exactly when it has to. -/
lemma Punctual.report_now {env : Environment} {s : Simulation σ} (h : Punctual env s)
    (hp : s.controller.phase = .running) (hr : s.controller.reporter.timer.isDue s.now = true) :
    s.now = Clock.ceilMs s.controller.reporter.timer.deadline :=
  Nat.le_antisymm (h.report hp) (of_decide_eq_true hr)

/-- A punctual run ticks exactly when it has to. -/
lemma Punctual.tick_now {env : Environment} {s : Simulation σ} (h : Punctual env s)
    (hp : s.controller.phase = .running) (hr : s.controller.ticker.isDue s.now = true) :
    s.now = Clock.ceilMs s.controller.ticker.deadline :=
  Nat.le_antisymm (h.tick hp) (of_decide_eq_true hr)

lemma Punctual.init {env : Environment} {plan : Plan} {source : σ} {reporter deadline} :
    Punctual env (init (fresh plan source 0 reporter deadline)) where
  interrupt _ _ _ := Nat.zero_le _
  deadline _ _ _ := Nat.zero_le _
  report _ := Nat.zero_le _
  tick _ := Nat.zero_le _
  busy := nofun
  ready := nofun

/-- What has yet to begin delivers in time. -/
lemma le_due_of_mem_beginning {env : Environment} {s : Simulation σ} {p} (h : p ∈ s.beginning env) :
    s.now ≤ p.due := by
  simp only [beginning, List.mem_filterMap, Option.map_eq_some_iff] at h
  obtain ⟨i, _, call, _, rfl⟩ := h
  exact Behaviour.le_delivery _ _ _

/-- The clock jumps to a timer that is not later than any other. -/
lemma timers_min {env : Environment} {s : Simulation σ} {t} (h : (s.timers env).min? = some t) :
    t ∈ s.timers env ∧ ∀ u ∈ s.timers env, t ≤ u :=
  List.min?_eq_some_iff.mp h

/-- The timers of a run that dispatches. -/
lemma mem_timers_of_running {env : Environment} {s : Simulation σ} (hp : s.controller.phase = .running) {t : Nat} :
    t ∈ s.timers env ↔ (∃ i, env.interrupt = some i ∧ t = Clock.ceilMs i) ∨
      (∃ d, s.controller.deadline = some d ∧ t = Clock.ceilMs d) ∨
      t = Clock.ceilMs s.controller.reporter.timer.deadline ∨ t = Clock.ceilMs s.controller.ticker.deadline ∨
      ∃ p ∈ s.busy, t = p.due := by
  have hr : s.controller.phase.isRunning = true := Phase.isRunning_iff.mpr hp
  simp only [timers, hr, if_true, List.mem_append, List.mem_map, List.mem_cons, Option.mem_toList,
    List.not_mem_nil, or_false]
  constructor
  · rintro (⟨u, ((hu | hu) | rfl | rfl), rfl⟩ | ⟨p, hp, rfl⟩)
    · exact .inl ⟨u, hu, rfl⟩
    · exact .inr (.inl ⟨u, hu, rfl⟩)
    · exact .inr (.inr (.inl rfl))
    · exact .inr (.inr (.inr (.inl rfl)))
    · exact .inr (.inr (.inr (.inr ⟨p, hp, rfl⟩)))
  · rintro (⟨u, hu, rfl⟩ | ⟨u, hu, rfl⟩ | rfl | rfl | ⟨p, hp, rfl⟩)
    · exact .inl ⟨u, .inl (.inl hu), rfl⟩
    · exact .inl ⟨u, .inl (.inr hu), rfl⟩
    · exact .inl ⟨_, .inr (.inl rfl), rfl⟩
    · exact .inl ⟨_, .inr (.inr rfl), rfl⟩
    · exact .inr ⟨p, hp, rfl⟩

/-- Once a run has stopped dispatching, it waits for its operations only. -/
lemma timers_of_stopped {env : Environment} {s : Simulation σ} (hp : s.controller.phase ≠ .running) :
    s.timers env = s.busy.map Pending.due := by
  have hr : s.controller.phase.isRunning = false := Bool.eq_false_iff.mpr fun h => hp (Phase.isRunning_iff.mp h)
  simp only [timers, hr, Bool.false_eq_true, if_false]

/-- Every operation that is busy has a timer. -/
lemma due_mem_timers {env : Environment} {s : Simulation σ} {p} (h : p ∈ s.busy) : p.due ∈ s.timers env := by
  unfold timers
  dsimp only
  split
  · exact List.mem_append_right _ (List.mem_map_of_mem h)
  · exact List.mem_map_of_mem h

/-- No small step makes a run late. -/
theorem Punctual.advance [Source σ] {env : Environment} {s t : Simulation σ} (h : Punctual env s)
    (ha : Advance env s t) : Punctual env t := by
  cases ha with
  | @event e d _ hn _ hr =>
    have hf := hr.frame
    have hrun : (s.reacted e d.settle).controller.phase = .running → s.controller.phase = .running :=
      fun hp => hr.running (settle_running.mp hp)
    refine ⟨fun hp => h.interrupt (hrun hp), fun hp x hx => ?_, fun hp => ?_, fun hp => ?_, h.busy, ?_⟩
    · exact h.deadline (hrun hp) x (hf.deadline ▸ hx)
    · exact Nat.le_trans (h.report (hrun hp)) (Clock.ceilMs_mono hf.report)
    · exact Nat.le_trans (h.tick (hrun hp)) (Clock.ceilMs_mono hf.tick)
    · intro p hp
      apply h.ready p
      cases e with
      | completion => exact List.mem_of_mem_tail hp
      | _ => exact hp
  | deliver _ hq =>
    have hdue : ∀ p ∈ s.busy ++ s.beginning env, s.now ≤ p.due := by
      intro p hp
      obtain hp | hp := List.mem_append.mp hp
      · exact h.busy p hp
      · exact le_due_of_mem_beginning hp
    refine ⟨h.interrupt, h.deadline, h.report, h.tick, ?_, ?_⟩
    · intro p hp
      exact hdue p (List.mem_filter.mp hp).1
    · intro p hp
      obtain hp | hp := List.mem_append.mp hp
      · exact h.ready p hp
      · obtain ⟨hp, hge⟩ := List.mem_filter.mp hp
        exact Nat.le_antisymm (of_decide_eq_true hge) (hdue p hp)
  | @jump t _ hq _ hm =>
    -- the clock jumps to the first of all timers, so it passes none
    have hmin := (timers_min hm).2
    refine ⟨fun hp i hi => ?_, fun hp d hd => ?_, fun hp => ?_, fun hp => ?_, fun p hp => ?_, ?_⟩
    · exact Nat.max_le.mpr ⟨h.interrupt hp i hi, hmin _ ((mem_timers_of_running hp).mpr (.inl ⟨i, hi, rfl⟩))⟩
    · exact Nat.max_le.mpr ⟨h.deadline hp d hd, hmin _ ((mem_timers_of_running hp).mpr (.inr (.inl ⟨d, hd, rfl⟩)))⟩
    · exact Nat.max_le.mpr ⟨h.report hp, hmin _ ((mem_timers_of_running hp).mpr (.inr (.inr (.inl rfl))))⟩
    · exact Nat.max_le.mpr ⟨h.tick hp, hmin _ ((mem_timers_of_running hp).mpr (.inr (.inr (.inr (.inl rfl)))))⟩
    · exact Nat.max_le.mpr ⟨h.busy p hp, hmin _ (due_mem_timers hp)⟩
    · rw [hq.ready]
      exact nofun

/-- A run on the virtual clock is punctual all along. -/
lemma Passes.punctual [Source σ] {env : Environment} {plan : Plan} {source : σ} {reporter : Reporter}
    {deadline : Option Nat} {n} {s : Simulation σ}
    (h : Passes env (Simulation.init (fresh plan source 0 reporter deadline)) n s) : Punctual env s := by
  induction h with
  | zero => exact .init
  | succ _ ha ih => exact ih.advance (advance_inv ha)

/-- A timer that fires at the first millisecond at which it may does not break down. -/
lemma not_breaks_of_ceilMs (i : Interval) : i.breaks (Clock.ceilMs i.deadline) = false := by
  have hlate := Clock.ceilMs_lt i.deadline
  apply Interval.breaks_of_le
  unfold Interval.tolerance
  omega

end Simulation
end Cadence.Run
