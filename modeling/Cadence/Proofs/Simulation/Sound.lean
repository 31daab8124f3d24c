import Cadence.Proofs.Run.Lifecycle
import Cadence.Proofs.Simulation.Deliveries
import Cadence.Proofs.Simulation.Effort

/-!
# What holds all along a run on the virtual clock

`Sound` puts together what every state of a run keeps to: its phases are in order, nothing is late, dispatch keeps its
pace, every operation delivers what it has to, reports are no denser than their interval, and the effort bounds the
small steps. `Passes.sound` is the induction over the run that everything about whole runs rests on.
-/

namespace Cadence.Run

namespace Simulation
open Controller

variable {σ : Type} {env : Environment} {plan : Plan} {deadline : Option Nat}

/-- Reports are an interval apart, or thirty years. -/
structure Reported (plan : Plan) (s : Simulation σ) : Prop where
  period : s.controller.reporter.timer.period = plan.reportInterval
  timer : (s.controller.reports.size + 1) * min plan.reportInterval.nanos Clock.far
    ≤ s.controller.reporter.timer.deadline
  past : s.controller.reports.size * min plan.reportInterval.nanos Clock.far ≤ s.now
  stopped : ∀ t, s.controller.stopped = some t →
    s.controller.reports.size * min plan.reportInterval.nanos Clock.far ≤ t

lemma Reported.init {source : σ} {listening reporter}
    (h : Reporter.create? plan.reportInterval 0 listening = some reporter) :
    Reported plan (init (fresh plan source 0 reporter deadline)) := by
  obtain ⟨first, hf, rfl⟩ := Option.map_eq_some_iff.mp h
  have hfirst := Clock.after?_eq_some hf
  refine ⟨rfl, ?_, ?_, nofun⟩
  · show (0 + 1) * _ ≤ first
    omega
  · show 0 * _ ≤ 0
    omega

/-- A reaction that takes no report leaves the reports as far apart as they were. -/
lemma Reported.same {s t : Simulation σ} {d : Controller σ} (h : Reported plan s) (hf : Frame s.controller d)
    (hr : d.reports = s.controller.reports) (hs : d.stopped = s.controller.stopped ∨ d.stopped = some s.now)
    (ht : t.controller = d.settle) (hnow : t.now = s.now) : Reported plan t := by
  have hreports : t.controller.reports = s.controller.reports := by rw [ht]; exact hr
  refine ⟨?_, ?_, ?_, ?_⟩
  · rw [ht]
    exact hf.period.trans h.period
  · rw [hreports, ht]
    exact Nat.le_trans h.timer hf.report
  · rw [hreports, hnow]
    exact h.past
  · intro u hu
    rw [ht] at hu
    rw [hreports]
    obtain hs | hs := hs
    · exact h.stopped u (hs ▸ hu)
    · obtain rfl := Option.some.inj (hs.symm.trans hu)
      exact h.past

/-- Whatever a run reacts to, its reports stay as far apart. -/
lemma Reported.reaction [Source σ] {s : Simulation σ} {e d} (h : Reported plan s) (ho : s.controller.Orderly)
    (hq : Punctual env s) (hn : Next env s e) (hr : Reaction s.controller s.now e d) :
    Reported plan (s.reacted e d.settle) := by
  cases hn with
  | interrupt => exact h.same hr.frame (hr.reports_eq nofun) (hr.extends nofun).stopped rfl rfl
  | @completion p rest hw =>
    cases hr with
    | completion ht hc => exact h.same (Reaction.frame (.completion ht hc)) rfl (.inl rfl) rfl rfl
  | deadline => exact h.same hr.frame (hr.reports_eq nofun) (hr.extends nofun).stopped rfl rfl
  | tick => exact h.same hr.frame (hr.reports_eq nofun) (hr.extends nofun).stopped rfl rfl
  | report hp _ _ _ hdue =>
    cases hr with
    | report =>
      have hnow := hq.report_now hp hdue
      have hfire := Interval.add_min_le_fire s.controller.reporter.timer s.now
      have htimer := h.timer
      rw [h.period] at hfire
      refine ⟨h.period, ?_, ?_, fun t ht => ?_⟩
      · show (((s.controller.reports.push _).size) + 1) * _ ≤ (s.controller.reporter.timer.fire s.now).deadline
        rw [Array.size_push, Nat.succ_mul]
        exact Nat.le_trans (Nat.add_le_add_right htimer _) hfire
      · show ((s.controller.reports.push _).size) * _ ≤ s.now
        rw [Array.size_push, hnow]
        exact Nat.le_trans htimer (Clock.le_ceilMs _)
      · have hnone := (ho.running hp).2.1
        exact absurd (hnone.symm.trans ht) nofun

variable [Source σ] {source : σ}

/-- What every state of a run keeps to after `n` small steps and `k` ticks. -/
structure Sound (env : Environment) (plan : Plan) (deadline : Option Nat) (source : σ) (n k : Nat)
    (s : Simulation σ) : Prop where
  orderly : s.controller.Orderly
  punctual : Punctual env s
  paced : Paced env plan deadline source k s.controller
  delivered : Delivered env s
  reported : Reported plan s
  effort : Effort env n k s

lemma Sound.init {listening reporter} (h : Reporter.create? plan.reportInterval 0 listening = some reporter) :
    Sound env plan deadline source 0 0 (init (fresh plan source 0 reporter deadline)) where
  orderly := .fresh
  punctual := .init
  paced := .fresh
  delivered := .init
  reported := .init h
  effort := .init

lemma Sound.advance {n k : Nat} {s t : Simulation σ} (honest : Source.Honest source)
    (h : Sound env plan deadline source n k s) (ha : Advance env s t) :
    ∃ j, Sound env plan deadline source (n + 1) j t := by
  have hq := h.punctual.advance ha
  have hd := h.delivered.advance h.punctual ha
  cases ha with
  | @event e d ht hn hs hr =>
    have hp := paced_reaction honest h.punctual h.paced hn hr
    exact ⟨k + e.ticks, h.orderly.reaction hr, hq, hp.settle, hd,
      h.reported.reaction h.orderly h.punctual hn hr, h.effort.succ (effort_reaction k hn hr)⟩
  | deliver ht hquiet hdue =>
    exact ⟨k, h.orderly, hq, h.paced, hd, ⟨h.reported.period, h.reported.timer, h.reported.past, h.reported.stopped⟩,
      h.effort.succ (effort_deliver k hdue)⟩
  | @jump t ht hquiet hdue hm =>
    have hpast := Nat.le_trans h.reported.past (Nat.le_max_left s.now t)
    exact ⟨k, h.orderly, hq, h.paced, hd, ⟨h.reported.period, h.reported.timer, hpast, h.reported.stopped⟩,
      h.effort.jump hquiet hdue (timers_min hm).1⟩

/-- Every state of a run keeps to it. -/
theorem Passes.sound {listening reporter n} {s : Simulation σ} (honest : Source.Honest source)
    (hreporter : Reporter.create? plan.reportInterval 0 listening = some reporter)
    (h : Passes env (Simulation.init (fresh plan source 0 reporter deadline)) n s) :
    ∃ k, Sound env plan deadline source n k s := by
  induction h with
  | zero => exact ⟨0, .init hreporter⟩
  | succ _ ha ih =>
    obtain ⟨k, hk⟩ := ih
    exact hk.advance honest (advance_inv ha)

end Simulation
end Cadence.Run
