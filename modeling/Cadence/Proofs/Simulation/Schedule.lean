import Cadence.Proofs.Simulation.Punctual
import Cadence.Proofs.Workload.Batch

/-!
# The schedule of dispatch

What a run on the virtual clock has dispatched depends on nothing but the number of its ticks so far: the first `k`
ticks draw as many items as there are, at most `k` batches, and each batch goes out at its tick (`Fed`). Dispatch stops
after the tick that leaves nothing, or at the first millisecond of the interrupt or of the deadline (`Halted`).
`Paced` puts both together, and `paced_reaction` carries it through a run.
-/

namespace Cadence

namespace Run

/-- How many items the first `k` ticks draw of those that are left. -/
def drawn (plan : Plan) (r : Remaining) (k : Nat) : Nat := r.limit (plan.rate * k)

/-- Whether something is left to do after `k` ticks; the first one is always done. -/
def MoreAfter (plan : Plan) (r : Remaining) (k : Nat) : Prop := k = 0 ∨ r.Exceeds (plan.rate * k)

/-- The instant of the `k`-th tick. -/
def tickAt (plan : Plan) (k : Nat) : Nat := Clock.ceilMs (Clock.beat plan.tick k)

/-- The `i`-th call of a run, which goes out at the tick of its batch. -/
def callAt {σ : Type} [Source σ] (plan : Plan) (source : σ) (i : Nat) : Option Call :=
  (Source.item? source i).map fun item => ⟨tickAt plan (i / plan.rate), item, plan.timeout⟩

/-- An instant is before the interrupt and before the deadline. -/
structure BeforeStop (env : Environment) (deadline : Option Nat) (t : Nat) : Prop where
  interrupt : ∀ i, env.interrupt = some i → t < Clock.ceilMs i
  deadline : ∀ d, deadline = some d → t < Clock.ceilMs d

/-- When and why dispatch stops after so many ticks. -/
inductive Halted (env : Environment) (plan : Plan) (deadline : Option Nat) (r : Remaining) :
    Nat → StopCause → Nat → Prop where
  | exhausted {k} :
    MoreAfter plan r k →
    ¬ r.Exceeds (plan.rate * (k + 1)) →
    Halted env plan deadline r (k + 1) .exhausted (tickAt plan k)
  | interrupted {k i} :
    env.interrupt = some i →
    (∀ d, deadline = some d → Clock.ceilMs i ≤ Clock.ceilMs d) →
    Clock.ceilMs i ≤ tickAt plan k →
    MoreAfter plan r k →
    Halted env plan deadline r k .interrupted (Clock.ceilMs i)
  | deadlineReached {k d} :
    deadline = some d →
    (∀ i, env.interrupt = some i → Clock.ceilMs d < Clock.ceilMs i) →
    Clock.ceilMs d ≤ tickAt plan k →
    MoreAfter plan r k →
    Halted env plan deadline r k .deadlineReached (Clock.ceilMs d)

lemma drawn_zero (plan : Plan) (r : Remaining) : drawn plan r 0 = 0 := Nat.le_zero.mp (r.limit_le 0)

/-- An item is drawn in the first `k` ticks exactly if there is one and its tick is one of them. -/
lemma lt_drawn_iff {plan : Plan} {r : Remaining} {i k : Nat} :
    i < drawn plan r k ↔ r.Exceeds i ∧ i / plan.rate < k := by
  rw [drawn, Remaining.lt_limit_iff, Nat.div_lt_iff_lt_mul plan.valid.rate_pos, Nat.mul_comm k]

/-- An item that one tick draws belongs to that tick. -/
lemma div_rate_of_drawn {plan : Plan} {r : Remaining} {i k : Nat} (hge : drawn plan r k ≤ i)
    (hlt : i < drawn plan r (k + 1)) : i / plan.rate = k := by
  obtain ⟨hx, hk⟩ := lt_drawn_iff.mp hlt
  refine Nat.le_antisymm (Nat.le_of_lt_succ hk) (Nat.le_of_not_lt fun hless => ?_)
  exact absurd (lt_drawn_iff.mpr ⟨hx, hless⟩) (Nat.not_lt.mpr hge)

/-- How many ticks an event is. -/
def Event.ticks : Event → Nat
  | .tick => 1
  | _ => 0

lemma tickAt_mono (plan : Plan) {j k : Nat} (h : j ≤ k) : tickAt plan j ≤ tickAt plan k :=
  Clock.ceilMs_mono (Clock.beat_mono plan.tick h)

namespace Controller

variable {σ : Type} [Source σ] {env : Environment} {plan : Plan} {deadline : Option Nat} {source : σ}

/-- What a run has drawn and dispatched in `k` ticks, all of them before it had to stop. -/
structure Fed (env : Environment) (plan : Plan) (deadline : Option Nat) (source : σ) (k : Nat)
    (c : Controller σ) : Prop where
  plan_eq : c.plan = plan
  deadline_eq : c.deadline = deadline
  ticker_eq : c.ticker = ⟨Clock.beat plan.tick k, plan.tick, .burst⟩
  source_eq : c.source = Source.after source (drawn plan (Source.remaining source) k)
  size_eq : c.calls.size = drawn plan (Source.remaining source) k
  calls_eq : ∀ i < c.calls.size, c.calls[i]? = callAt plan source i
  before : ∀ j < k, BeforeStop env deadline (tickAt plan j)

/-- The pace of a run: as long as it dispatches there is something left, and it stops when and why it has to. -/
structure Paced (env : Environment) (plan : Plan) (deadline : Option Nat) (source : σ) (k : Nat)
    (c : Controller σ) : Prop extends Fed env plan deadline source k c where
  running : c.phase = .running → MoreAfter plan (Source.remaining source) k
  halted : ∀ cause, c.phase.cause? = some cause →
    ∃ t, c.stopped = some t ∧ Halted env plan deadline (Source.remaining source) k cause t

lemma Paced.fresh {reporter} : Paced env plan deadline source 0 (fresh plan source 0 reporter deadline) where
  plan_eq := rfl
  deadline_eq := rfl
  ticker_eq := rfl
  source_eq := by rw [drawn_zero]; rfl
  size_eq := by rw [drawn_zero]; rfl
  calls_eq := nofun
  before := nofun
  running _ := .inl rfl
  halted := nofun

/-- What a run has drawn and dispatched does not depend on anything else that it does. -/
lemma Fed.of_same {k} {c d : Controller σ} (h : Fed env plan deadline source k c) (hplan : d.plan = c.plan)
    (hdeadline : d.deadline = c.deadline) (hticker : d.ticker = c.ticker) (hsource : d.source = c.source)
    (hcalls : d.calls = c.calls) : Fed env plan deadline source k d where
  plan_eq := hplan.trans h.plan_eq
  deadline_eq := hdeadline.trans h.deadline_eq
  ticker_eq := hticker.trans h.ticker_eq
  source_eq := hsource.trans h.source_eq
  size_eq := by rw [hcalls]; exact h.size_eq
  calls_eq := by rw [hcalls]; exact h.calls_eq
  before := h.before

/-- A run that is looked at whether it has ended keeps its pace. -/
lemma Paced.settle {k} {d : Controller σ} (h : Paced env plan deadline source k d) :
    Paced env plan deadline source k d.settle where
  toFed := h.toFed.of_same rfl rfl rfl rfl rfl
  running hp := h.running (settle_running.mp hp)
  halted cause hc := h.halted cause (settle_cause d ▸ hc)

/-- A run that goes on dispatching with something left keeps its pace. -/
lemma Fed.goesOn {k} {c : Controller σ} (h : Fed env plan deadline source k c) (hp : c.phase = .running)
    (hm : MoreAfter plan (Source.remaining source) k) : Paced env plan deadline source k c := by
  refine ⟨h, fun _ => hm, fun cause hc => ?_⟩
  rw [hp] at hc
  cases hc

/-- A run that stops when and why it has to keeps its pace. -/
lemma Fed.stop {k now cause} {c : Controller σ} (h : Fed env plan deadline source k c) (hp : c.phase = .running)
    (hh : Halted env plan deadline (Source.remaining source) k cause now) :
    Paced env plan deadline source k (c.stop now cause) := by
  rw [stop_of_running hp]
  refine ⟨h.of_same rfl rfl rfl rfl rfl, nofun, fun x hx => ?_⟩
  cases hx
  exact ⟨now, rfl, hh⟩

/-- A tick draws the next items, and dispatches them as the calls that come next. -/
lemma Fed.feed {k now batch rest} {c : Controller σ} (h : Fed env plan deadline source k c)
    (honest : Source.Honest source) (hnow : now = tickAt plan k) (hstop : BeforeStop env deadline now)
    (hd : Batch.draw c.plan.rate c.source = (.ok batch, rest)) :
    Fed env plan deadline source (k + 1) (c.feed now batch rest) ∧
      (Source.isExhausted rest = true ↔ ¬ (Source.remaining source).Exceeds (plan.rate * (k + 1))) := by
  obtain ⟨items, hdraw, hsize, hget⟩ :=
    Batch.draw_of_honest honest plan.rate (drawn plan (Source.remaining source) k)
  have hnext : drawn plan (Source.remaining source) k
      + ((Source.remaining source).drop (drawn plan (Source.remaining source) k)).limit plan.rate
      = drawn plan (Source.remaining source) (k + 1) := Remaining.limit_add _ _ _
  rw [h.plan_eq, h.source_eq, hdraw, hnext] at hd
  obtain ⟨hb, rfl⟩ := Prod.mk.inj hd
  obtain rfl := Except.ok.inj hb
  have hcalls : (c.calls ++ items.map fun item => Call.mk now item c.plan.timeout).size
      = drawn plan (Source.remaining source) (k + 1) := by
    rw [Array.size_append, Array.size_map, h.size_eq, hsize]
    exact hnext
  constructor
  · rw [feed_eq]
    refine ⟨h.plan_eq, h.deadline_eq, ?_, rfl, hcalls, fun i hi => ?_, fun j hj => ?_⟩
    · rw [h.ticker_eq]
      rfl
    · -- an earlier operation keeps its call, a later one is an item of this batch
      obtain hlt | hge := Nat.lt_or_ge i c.calls.size
      · rw [Array.getElem?_append_left hlt]
        exact h.calls_eq i hlt
      · have hk : i - c.calls.size < items.size := by
          rw [Array.size_append, Array.size_map] at hi
          omega
        have hitem := hget (i - c.calls.size) hk
        rw [← h.size_eq, Nat.add_sub_cancel' hge] at hitem
        have hdiv : i / plan.rate = k := div_rate_of_drawn (h.size_eq ▸ hge) (hcalls ▸ hi)
        rw [Array.getElem?_append_right hge, Array.getElem?_map, hitem, callAt, hdiv, h.plan_eq, hnow]
    · obtain hlt | heq := Nat.lt_or_eq_of_le (Nat.le_of_lt_succ hj)
      · exact h.before j hlt
      · rw [heq, ← hnow]
        exact hstop
  · rw [honest.isExhausted_after]
    exact not_congr (Remaining.exceeds_limit _ _)

end Controller

namespace Simulation
open Controller

variable {σ : Type} [Source σ] {env : Environment} {plan : Plan} {deadline : Option Nat} {source : σ}

/-- A punctual run ticks exactly at the instant of its next tick, which is before it has to stop. -/
lemma tick_now {k : Nat} {s : Simulation σ} (hq : Punctual env s) (h : Fed env plan deadline source k s.controller)
    (hn : Next env s .tick) : s.now = tickAt plan k ∧ BeforeStop env deadline s.now := by
  cases hn with
  | tick hp hi _ hd _ hdue =>
    refine ⟨?_, ?_, ?_⟩
    · rw [hq.tick_now hp hdue, h.ticker_eq]
      rfl
    · exact fun i he => lt_of_not_reached hi he
    · exact fun d he => lt_of_not_reached hd (h.deadline_eq.trans he)

/-- As long as a run dispatches, its next tick lies ahead. -/
lemma le_tickAt {k : Nat} {s : Simulation σ} (hq : Punctual env s) (h : Fed env plan deadline source k s.controller)
    (hp : s.controller.phase = .running) : s.now ≤ tickAt plan k := by
  have ht := hq.tick hp
  rw [h.ticker_eq] at ht
  exact ht

/-- No reaction breaks the pace of a run. -/
lemma paced_reaction {k : Nat} {s : Simulation σ} {e d} (honest : Source.Honest source) (hq : Punctual env s)
    (h : Paced env plan deadline source k s.controller) (hn : Next env s e) (hr : Reaction s.controller s.now e d) :
    Paced env plan deadline source (k + e.ticks) d := by
  cases hr with
  | interrupt hp =>
    cases hn with
    | interrupt _ hi =>
      obtain ⟨i, hi, hnow⟩ := hq.interrupt_now hp hi
      have hd : ∀ d, deadline = some d → s.now ≤ Clock.ceilMs d :=
        fun d hd => hq.deadline hp d (h.deadline_eq.trans hd)
      have ht := le_tickAt hq h.toFed hp
      apply h.toFed.stop hp
      rw [hnow] at hd ht ⊢
      exact .interrupted hi hd ht (h.running hp)
  | completion => exact ⟨h.toFed.of_same rfl rfl rfl rfl rfl, h.running, h.halted⟩
  | deadline hp =>
    cases hn with
    | deadline _ hi _ hd =>
      obtain ⟨d, hd, hnow⟩ := hq.deadline_now hp hd
      have hint : ∀ i, env.interrupt = some i → s.now < Clock.ceilMs i :=
        fun i he => lt_of_not_reached hi he
      have ht := le_tickAt hq h.toFed hp
      apply h.toFed.stop hp
      rw [hnow] at hint ht ⊢
      exact .deadlineReached (h.deadline_eq.symm.trans hd) hint ht (h.running hp)
  | report => exact ⟨h.toFed.of_same rfl rfl rfl rfl rfl, h.running, h.halted⟩
  | tick hp hdraw hx =>
    obtain ⟨hnow, hstop⟩ := tick_now hq h.toFed hn
    obtain ⟨hfed, hmore⟩ := h.toFed.feed honest hnow hstop hdraw
    have hleft : (Source.remaining source).Exceeds (plan.rate * (k + 1)) := by
      by_contra hl
      rw [hmore.mpr hl] at hx
      cases hx
    exact hfed.goesOn (feed_running hp) (.inr hleft)
  | lastTick hp hdraw hx =>
    obtain ⟨hnow, hstop⟩ := tick_now hq h.toFed hn
    obtain ⟨hfed, hmore⟩ := h.toFed.feed honest hnow hstop hdraw
    apply hfed.stop (feed_running hp)
    rw [hnow]
    exact .exhausted (h.running hp) (hmore.mp hx)

end Simulation
end Run
end Cadence
