import Cadence.Proofs.Simulation.Refinement
import Cadence.Proofs.Simulation.Sound

/-!
# Runs end

A run on the virtual clock with an honest source always has a next small step until it has ended
(`Sound.advances`), and if it has to stop dispatching some time, the budget suffices for all of them
(`Sound.lt_budget`).
-/

namespace Cadence.Run

lemma MoreAfter.pred {plan : Plan} {r : Remaining} {k : Nat} (h : MoreAfter plan r (k + 1)) :
    MoreAfter plan r k := by
  obtain h0 | h := h
  · cases h0
  · exact .inr (h.of_le (Nat.mul_le_mul_left plan.rate (Nat.le_succ k)))

lemma MoreAfter.of_le {plan : Plan} {r : Remaining} {j k : Nat} (h : MoreAfter plan r k) (hjk : j ≤ k) :
    MoreAfter plan r j := by
  induction hjk with
  | refl => exact h
  | step _ ih => exact ih h.pred

/-- There are not more ticks than items, but for the first one. -/
lemma MoreAfter.le_count {plan : Plan} {n k : Nat} (h : MoreAfter plan (.finite n) k) : k ≤ n := by
  obtain rfl | h := h
  · exact Nat.zero_le n
  · have hk : 1 * k ≤ plan.rate * k := Nat.mul_le_mul_right k plan.valid.rate_pos
    have hn : plan.rate * k < n := h
    omega

/-- An instant at which a run may still dispatch. -/
structure Timely (env : Environment) (plan : Plan) (deadline : Option Nat) (r : Remaining) (t : Nat) : Prop where
  interrupt : ∀ i, env.interrupt = some i → t ≤ Clock.ceilMs i
  deadline : ∀ d, deadline = some d → t ≤ Clock.ceilMs d
  tick : ∃ k, MoreAfter plan r k ∧ t ≤ tickAt plan k

/-- The deadline of a run that starts at zero is its largest duration. -/
lemma deadline?_inv {plan : Plan} {deadline : Option Nat} (h : Controller.deadline? plan 0 = some deadline) :
    deadline = plan.maxDuration.map Duration.nanos := by
  unfold Controller.deadline? at h
  cases hd : plan.maxDuration with
  | none =>
    rw [hd] at h
    exact (Option.some.inj h).symm
  | some d =>
    rw [hd] at h
    obtain ⟨t, ht, rfl⟩ := Option.map_eq_some_iff.mp h
    rw [Clock.after?_eq_some ht, Nat.zero_add]
    rfl

/-- No run dispatches after its horizon. -/
lemma Timely.le_horizon {env : Environment} {plan : Plan} {deadline : Option Nat} {r : Remaining} {t stop : Nat}
    (h : Timely env plan deadline r t) (hd : Controller.deadline? plan 0 = some deadline)
    (hs : Simulation.horizon env plan r.count? = some stop) : t ≤ stop := by
  obtain ⟨x, hx, rfl⟩ := Option.map_eq_some_iff.mp hs
  have hmem := (List.min?_eq_some_iff.mp hx).1
  simp only [List.mem_append, Option.mem_toList, Option.map_eq_some_iff] at hmem
  obtain (hi | ⟨d, hmax, rfl⟩) | ⟨n, hn, rfl⟩ := hmem
  · have hle := h.interrupt x hi
    have hc := Clock.ceilMs_lt x
    omega
  · have hle := h.deadline d.nanos (by rw [deadline?_inv hd, hmax]; rfl)
    have hc := Clock.ceilMs_lt d.nanos
    omega
  · cases r with
    | unbounded => cases hn
    | finite m =>
      cases hn
      obtain ⟨k, hm, hle⟩ := h.tick
      have hb := Clock.beat_le_mul plan.tick k
      have hk := Nat.mul_le_mul_right (max plan.tick.nanos Clock.far) hm.le_count
      have hc := Clock.ceilMs_lt (Clock.beat plan.tick k)
      unfold tickAt at hle
      omega

namespace Controller

variable {σ : Type} [Source σ] {env : Environment} {plan : Plan} {deadline : Option Nat} {source : σ}

/-- When a run stopped, it could still dispatch. -/
lemma Paced.timely_stopped {k t : Nat} {c : Controller σ} (h : Paced env plan deadline source k c)
    (hp : c.phase ≠ .running) (ht : c.stopped = some t) : Timely env plan deadline (Source.remaining source) t := by
  obtain ⟨cause, hc⟩ := (running_or_stopped c.phase).resolve_left hp
  obtain ⟨u, hu, hh⟩ := h.halted cause hc
  obtain rfl := Option.some.inj (hu.symm.trans ht)
  cases hh with
  | @exhausted j hm =>
    have hb := h.before j (Nat.lt_succ_self j)
    exact ⟨fun i hi => Nat.le_of_lt (hb.interrupt i hi), fun d hd => Nat.le_of_lt (hb.deadline d hd), j, hm,
      Nat.le_refl _⟩
  | interrupted hi hd hle hm =>
    refine ⟨fun i' hi' => ?_, hd, k, hm, hle⟩
    obtain rfl := Option.some.inj (hi.symm.trans hi')
    exact Nat.le_refl _
  | deadlineReached hd hi hle hm =>
    refine ⟨fun i hi' => Nat.le_of_lt (hi i hi'), fun d' hd' => ?_, k, hm, hle⟩
    obtain rfl := Option.some.inj (hd.symm.trans hd')
    exact Nat.le_refl _

/-- When a run ticked, it could still dispatch. -/
lemma Paced.timely_tick {k : Nat} {c : Controller σ} (h : Paced env plan deadline source (k + 1) c) :
    Timely env plan deadline (Source.remaining source) (tickAt plan k) := by
  have hb := h.before k (Nat.lt_succ_self k)
  refine ⟨fun i hi => Nat.le_of_lt (hb.interrupt i hi), fun d hd => Nat.le_of_lt (hb.deadline d hd), k, ?_,
    Nat.le_refl _⟩
  obtain hp | ⟨cause, hc⟩ := running_or_stopped c.phase
  · exact (h.running hp).pred
  · obtain ⟨t, _, hh⟩ := h.halted cause hc
    cases hh with
    | exhausted hm => exact hm
    | interrupted _ _ _ hm => exact hm.pred
    | deadlineReached _ _ _ hm => exact hm.pred

/-- No more was dispatched than the ticks allow. -/
lemma Fed.calls_le {k : Nat} {c : Controller σ} (h : Fed env plan deadline source k c) :
    c.calls.size ≤ plan.rate * k := by
  rw [h.size_eq]
  exact Remaining.limit_le _ _

end Controller

namespace Simulation
open Controller

variable {σ : Type} [Source σ] {env : Environment} {plan : Plan} {deadline : Option Nat} {source : σ}

/-- With an honest source and balanced books, no small step fails. -/
lemma Sound.not_faulted {n k : Nat} {s t : Simulation σ} {f} (honest : Source.Honest source)
    (h : Sound env plan deadline source n k s) (hl : System.Ledger s.system) : s.advance env ≠ .faulted t f := by
  intro ha
  obtain ⟨rfl, e, hn, hs⟩ := advance_faulted ha
  obtain ⟨operation, o, rfl, _, h0, _⟩ | ⟨rfl, _, rest, hd⟩ := Controller.step_fault hs
  · cases hn with
    | completion hw =>
      have hact : s.controller.inFlight.active = s.system.outstanding := hl.active
      simp only [System.outstanding, system, hw, List.map_cons, List.length_cons] at hact
      omega
  · obtain ⟨items, hdraw, _⟩ :=
      Batch.draw_of_honest honest plan.rate (drawn plan (Source.remaining source) k)
    rw [h.paced.plan_eq, h.paced.source_eq, hdraw] at hd
    cases hd

/-- As long as a run has not ended, something is left to wait for. -/
lemma Sound.not_stalled {n k : Nat} {s t : Simulation σ} (h : Sound env plan deadline source n k s)
    (hl : System.Ledger s.system) : s.advance env ≠ .stalled t := by
  intro ha
  obtain ⟨rfl, ht, hq, hd, hnone⟩ := advance_stalled ha
  by_cases hp : s.controller.phase = .running
  · have hmem : Clock.ceilMs s.controller.reporter.timer.deadline ∈ s.timers env :=
      (mem_timers_of_running hp).mpr (.inr (.inr (.inl rfl)))
    rw [hnone] at hmem
    cases hmem
  · -- with nothing busy, nothing that waits and nothing to begin, the books say that nothing is in flight
    rw [timers_of_stopped hp] at hnone
    have hbusy : s.busy = [] := List.map_eq_nil_iff.mp hnone
    simp only [hasDeliveries, Bool.or_eq_false_iff, decide_eq_false_iff_not, Nat.not_lt] at hd
    have hzero : s.controller.inFlight.active = 0 := by
      have hact : s.controller.inFlight.active = s.system.outstanding := hl.active
      rw [hact]
      simp only [System.outstanding, system, hbusy, hq.ready, List.map_nil, List.nil_append, List.length_nil,
        List.length_range']
      omega
    have hclosed : s.controller.inFlight.closed = true := h.orderly.closed.mpr hp
    have hend : s.controller.isTerminated = true := by
      apply h.orderly.ended.mpr
      simp [InFlight.isComplete, hclosed, hzero]
    rw [ht] at hend
    cases hend

/-- A run goes on until it has ended. -/
theorem Sound.advances {n k : Nat} {s : Simulation σ} (honest : Source.Honest source)
    (h : Sound env plan deadline source n k s) (hl : System.Ledger s.system) :
    (∃ t, s.advance env = .continues t) ∨ (s.advance env = .ended s ∧ s.controller.isTerminated = true) := by
  cases ha : s.advance env with
  | continues t => exact .inl ⟨t, rfl⟩
  | faulted t f => exact absurd ha (h.not_faulted honest hl)
  | stalled t => exact absurd ha (h.not_stalled hl)
  | ended t =>
    obtain ⟨rfl, ht⟩ := advance_ended ha
    exact .inr ⟨rfl, ht⟩

/-- As long as a run dispatches, it may do so now. -/
lemma Sound.timely_now {n k : Nat} {s : Simulation σ} (h : Sound env plan deadline source n k s)
    (hp : s.controller.phase = .running) : Timely env plan deadline (Source.remaining source) s.now where
  interrupt := h.punctual.interrupt hp
  deadline d hd := h.punctual.deadline hp d (h.paced.deadline_eq.trans hd)
  tick := ⟨k, h.paced.running hp, le_tickAt h.punctual h.paced.toFed hp⟩

omit [Source σ] in
/-- Every result that waits or was taken in belongs to an operation that was dispatched. -/
lemma results_le {s : Simulation σ} (hl : System.Ledger s.system) :
    s.controller.completions.size + s.ready.length ≤ s.controller.calls.size := by
  have hlen := hl.accounted.length_eq
  simp only [system, List.length_append, List.length_map, List.length_range, Array.length_toList] at hlen
  omega

/-- The small steps of a run that reports and ticks only so often. -/
lemma Sound.steps_le {n k : Nat} {s : Simulation σ} (h : Sound env plan deadline source n k s)
    (hl : System.Ledger s.system) : n ≤ 4 * k + 2 * s.controller.reports.size + 4 * (plan.rate * k) + 3 := by
  have hb := h.effort.bound
  have hres := results_le hl
  have hcalls := h.paced.calls_le
  have hrun := Bool.toNat_le (!s.controller.phase.isRunning)
  simp only [Simulation.effort, weight] at hb
  omega

/-- A shorter period fits into a time at least as often. -/
lemma le_div_period {d : Duration} {k t : Nat} (hd : 0 < d.nanos) (h : k * min d.nanos Clock.far ≤ t) :
    k ≤ t / min d.nanos Clock.far := by
  have hpos : 0 < min d.nanos Clock.far := Nat.lt_min.mpr ⟨hd, by decide⟩
  exact (Nat.le_div_iff_mul_le hpos).mpr h

/-- The budget suffices for all small steps of a run that has to stop. -/
theorem Sound.lt_budget {n k stop : Nat} {s : Simulation σ} (h : Sound env plan deadline source n k s)
    (hl : System.Ledger s.system) (hd : deadline? plan 0 = some deadline)
    (hs : horizon env plan (Source.remaining source).count? = some stop) : n < budget plan stop := by
  have hticks : k ≤ stop / min plan.tick.nanos Clock.far + 1 := by
    cases k with
    | zero => exact Nat.zero_le _
    | succ k =>
      have hle : k * min plan.tick.nanos Clock.far ≤ stop :=
        calc k * min plan.tick.nanos Clock.far
          _ ≤ Clock.beat plan.tick k := Clock.mul_le_beat plan.tick k
          _ ≤ tickAt plan k := Clock.le_ceilMs _
          _ ≤ stop := h.paced.timely_tick.le_horizon hd hs
      exact Nat.succ_le_succ (le_div_period plan.valid.tick_pos hle)
  -- a run that has stopped takes no more reports
  have hreports : s.controller.reports.size ≤ stop / min plan.reportInterval.nanos Clock.far := by
    apply le_div_period plan.valid.report_pos
    by_cases hp : s.controller.phase = .running
    · exact Nat.le_trans h.reported.past ((h.timely_now hp).le_horizon hd hs)
    · obtain ⟨t, ht⟩ := Option.isSome_iff_exists.mp (h.orderly.stopped.mpr hp)
      exact Nat.le_trans (h.reported.stopped t ht) ((h.paced.timely_stopped hp ht).le_horizon hd hs)
  have hsteps := h.steps_le hl
  have hrate := Nat.mul_le_mul_left plan.rate hticks
  rw [Nat.mul_comm plan.rate (stop / min plan.tick.nanos Clock.far + 1)] at hrate
  simp only [budget]
  omega

end Simulation
end Cadence.Run
