import Cadence.Proofs.Simulation.Schedule

/-!
# The effort of a run

Why a run on the virtual clock cannot take small steps for ever. `effort` weighs what a run has done: ticks, reports,
results that wait or were taken in, and whether it has stopped. Every reaction and every delivery raises it by more
than one small step costs, and the clock jumps only when nothing is left to do at the instant, to one at which
something is; so the effort bounds the number of small steps (`Effort.succ`, `Effort.jump`).
-/

namespace Cadence.Run

namespace Controller

variable {σ : Type}

/-- What the controller of a run has done in `k` ticks. -/
def weight (k : Nat) (c : Controller σ) : Nat :=
  4 * k + 2 * c.reports.size + 4 * c.completions.size + 2 * (!c.phase.isRunning).toNat

lemma weight_settle (k : Nat) (d : Controller σ) : weight k d.settle = weight k d := by
  have hp : d.settle.phase.isRunning = d.phase.isRunning :=
    Bool.eq_iff_iff.mpr (by rw [Phase.isRunning_iff, Phase.isRunning_iff]; exact settle_running)
  simp only [weight, hp]
  rfl

lemma weight_stop {d : Controller σ} {now cause} (hp : d.phase = .running) (k : Nat) :
    weight k (d.stop now cause) = weight k d + 2 := by
  rw [stop_of_running hp]
  simp only [weight, Phase.isRunning_iff.mpr hp]
  rfl

lemma weight_feed (k : Nat) (c : Controller σ) (now : Nat) (batch : Array Item) (source : σ) :
    weight (k + 1) (c.feed now batch source) = weight k c + 4 := by
  rw [feed_eq]
  simp only [weight]
  omega

/-- A reaction to anything but a result does something, and more if it dispatches. -/
lemma weight_reaction [Source σ] {c d : Controller σ} {now e} (k : Nat) (hr : Reaction c now e d)
    (he : ∀ operation o, e ≠ .completion operation o) :
    weight k c + 2 ≤ weight (k + e.ticks) d.settle ∧
      (d.calls.size = c.calls.size ∨ weight k c + 4 ≤ weight (k + e.ticks) d.settle) := by
  rw [weight_settle]
  cases hr with
  | interrupt hp =>
    refine ⟨Nat.le_of_eq (weight_stop hp k).symm, .inl ?_⟩
    rw [stop_of_running hp]
  | completion => exact absurd rfl (he _ _)
  | deadline hp =>
    refine ⟨Nat.le_of_eq (weight_stop hp k).symm, .inl ?_⟩
    rw [stop_of_running hp]
  | report =>
    refine ⟨?_, .inl rfl⟩
    simp only [weight, report, Event.ticks, Array.size_push]
    omega
  | @tick batch source =>
    have hw := weight_feed k c now batch source
    simp only [Event.ticks]
    omega
  | @lastTick batch source hp =>
    have hw := weight_feed k c now batch source
    have hs : weight (k + 1) ((c.feed now batch source).stop now .exhausted)
        = weight (k + 1) (c.feed now batch source) + 2 := weight_stop (feed_running hp) (k + 1)
    simp only [Event.ticks]
    omega

lemma weight_absorb (k : Nat) (c : Controller σ) (now operation : Nat) (o : Outcome) (inFlight : InFlight) :
    weight k (c.absorb now operation o inFlight).settle = weight k c + 4 := by
  rw [weight_settle]
  simp only [weight, absorb, Array.size_push]
  omega

end Controller

namespace Simulation
open Controller

variable {σ : Type} {env : Environment}

/-- What a run has done in `k` ticks. -/
def effort (k : Nat) (s : Simulation σ) : Nat := weight k s.controller + 2 * s.ready.length

/-- What a run still owes: the beginning of what was dispatched. -/
def debt (s : Simulation σ) : Nat := 2 * (decide (s.begun < s.controller.calls.size)).toNat

/-- The effort of a run bounds its small steps, and by one more as long as there is something to do at the
instant. -/
structure Effort (env : Environment) (n k : Nat) (s : Simulation σ) : Prop where
  bound : n + debt s ≤ effort k s + 1
  idle : Quiet env s → s.hasDeliveries = false → n + debt s ≤ effort k s

lemma Effort.init {plan : Plan} {source : σ} {reporter deadline} :
    Effort env 0 0 (init (fresh plan source 0 reporter deadline)) where
  bound := Nat.zero_le _
  idle _ _ := Nat.le_refl _

/-- What a run owes is at most the beginning of one batch. -/
lemma debt_le (s : Simulation σ) : debt s ≤ 2 := by
  have := Bool.toNat_le (decide (s.begun < s.controller.calls.size))
  unfold debt
  omega

/-- Every reaction is worth more than a small step, with the debt that it brings. -/
lemma effort_reaction [Source σ] {s : Simulation σ} {e d} (k : Nat) (hn : Next env s e)
    (hr : Reaction s.controller s.now e d) :
    effort k s + debt (s.reacted e d.settle) + 2 ≤ effort (k + e.ticks) (s.reacted e d.settle) + debt s := by
  have hother : (∀ operation o, e ≠ .completion operation o) → (s.reacted e d.settle).ready = s.ready →
      effort k s + debt (s.reacted e d.settle) + 2 ≤ effort (k + e.ticks) (s.reacted e d.settle) + debt s := by
    intro he hready
    have hd := debt_le (s.reacted e d.settle)
    have hw := weight_reaction k hr he
    unfold effort
    rw [hready]
    show _ ≤ weight (k + e.ticks) d.settle + _ + _
    -- a new debt comes only with a batch, which is worth it
    obtain hc | hc := hw.2
    · have hsame : debt (s.reacted e d.settle) = debt s := by
        show 2 * (decide (s.begun < d.calls.size)).toNat = _
        rw [hc]
        rfl
      omega
    · omega
  cases hn with
  | interrupt => exact hother nofun rfl
  | deadline => exact hother nofun rfl
  | report => exact hother nofun rfl
  | tick => exact hother nofun rfl
  | @completion p rest hw =>
    cases hr with
    | @completion _ _ inFlight =>
      have ha := weight_absorb k s.controller s.now p.operation p.outcome inFlight
      simp only [effort, reacted, Event.ticks, Nat.add_zero, hw, List.tail_cons, List.length_cons]
      show _ + debt s + _ ≤ _
      omega

/-- Every delivery is worth more than a small step. -/
lemma effort_deliver {s : Simulation σ} (k : Nat) (hd : s.hasDeliveries = true) :
    effort k s + debt (s.deliver env) + 2 ≤ effort k (s.deliver env) + debt s := by
  have hpaid : debt (s.deliver env) = 0 := by
    simp [debt, deliver]
  have hready : (s.deliver env).ready = s.ready ++ (s.busy ++ s.beginning env).filter fun p => p.due ≤ s.now := rfl
  have hc : (s.deliver env).controller = s.controller := rfl
  rw [hpaid]
  simp only [effort, hready, hc, List.length_append]
  simp only [hasDeliveries, Bool.or_eq_true, decide_eq_true_eq] at hd
  obtain hb | hb := hd
  · simp only [debt, hb, decide_true, Bool.toNat_true]
    omega
  · obtain ⟨p, hp, hdue⟩ := List.any_eq_true.mp hb
    have hpos : 0 < ((s.busy ++ s.beginning env).filter fun p => p.due ≤ s.now).length :=
      List.length_pos_of_mem (List.mem_filter.mpr ⟨List.mem_append_left _ hp, hdue⟩)
    omega

/-- Where the clock jumps to, there is something to do. -/
lemma stirs_of_jump {s : Simulation σ} {t : Nat} (ht : t ∈ s.timers env)
    (hq : Quiet env { s with now := max s.now t }) :
    ({ s with now := max s.now t } : Simulation σ).hasDeliveries = true := by
  have hle : t ≤ max s.now t := Nat.le_max_right _ _
  have hbusy : ∀ p ∈ s.busy, t = p.due →
      ({ s with now := max s.now t } : Simulation σ).hasDeliveries = true := by
    intro p hp he
    have hany : (s.busy.any fun p => p.due ≤ max s.now t) = true :=
      List.any_eq_true.mpr ⟨p, hp, decide_eq_true (he ▸ hle)⟩
    simp only [hasDeliveries, hany, Bool.or_true]
  by_cases hp : s.controller.phase = .running
  · -- any timer but that of a delivery would fire there
    obtain ⟨i, hi, rfl⟩ | ⟨d, hd, rfl⟩ | rfl | rfl | ⟨p, hmem, he⟩ := (mem_timers_of_running hp).mp ht
    · have hn := reached_iff.mpr ⟨i, hi, hle⟩
      rw [hq.interrupt hp] at hn
      cases hn
    · have hn := reached_iff.mpr ⟨d, hd, hle⟩
      rw [hq.deadline hp] at hn
      cases hn
    · have hn := hq.report hp
      rw [Interval.isDue, decide_eq_false_iff_not] at hn
      exact absurd hle hn
    · have hn := hq.tick hp
      rw [Interval.isDue, decide_eq_false_iff_not] at hn
      exact absurd hle hn
    · exact hbusy p hmem he
  · rw [timers_of_stopped hp] at ht
    obtain ⟨p, hmem, he⟩ := List.mem_map.mp ht
    exact hbusy p hmem he.symm

/-- The effort bounds the small steps after one more, if what follows weighs enough. -/
lemma Effort.succ {n k j : Nat} {s t : Simulation σ} (h : Effort env n k s)
    (he : effort k s + debt t + 2 ≤ effort j t + debt s) : Effort env (n + 1) j t := by
  have hb := h.bound
  exact ⟨by omega, fun _ _ => by omega⟩

/-- The effort bounds the small steps after a jump of the clock. -/
lemma Effort.jump {n k t : Nat} {s : Simulation σ} (h : Effort env n k s) (hq : Quiet env s)
    (hd : s.hasDeliveries = false) (ht : t ∈ s.timers env) :
    Effort env (n + 1) k { s with now := max s.now t } where
  bound := by
    have hi := h.idle hq hd
    show n + 1 + debt s ≤ effort k s + 1
    omega
  idle hq' hd' := by
    rw [stirs_of_jump ht hq'] at hd'
    cases hd'

end Simulation
end Cadence.Run
