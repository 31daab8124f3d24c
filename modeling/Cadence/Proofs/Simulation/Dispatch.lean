import Cadence.Proofs.Simulation.Termination

/-!
# Dispatch keeps its schedule

On the virtual clock the `i`-th operation is dispatched at the tick `i / rate`, with the `i`-th item of the source, and
at no other instant, whatever the operations do and however many are in flight (`dispatch_keeps_schedule`). Only the
triggers that stop dispatch can keep an item back: while the run dispatches, no item is left whose tick has passed,
and every item whose tick comes before the interrupt and the deadline is dispatched in the end.
-/

namespace Cadence.Run

open Controller Simulation

variable {σ : Type} [Source σ] {env : Environment} {plan : Plan} {deadline : Option Nat} {source : σ}

/-- Within the clock's range a tick comes at a multiple of the period, rounded up to a millisecond. -/
lemma tickAt_eq {k : Nat} (h : k * plan.tick.nanos < Clock.limit) :
    tickAt plan k = Clock.ceilMs (k * plan.tick.nanos) := by
  rw [tickAt, Clock.beat_eq h]

namespace Controller

/-- The items up to which a run has come were dispatched, as far as there are any. -/
lemma Fed.lt_size {k i : Nat} {c : Controller σ} (h : Fed env plan deadline source k c)
    (hi : (Source.remaining source).Exceeds i) (hk : i / plan.rate < k) : i < c.calls.size := by
  rw [h.size_eq]
  exact lt_drawn_iff.mpr ⟨hi, hk⟩

/-- A call of a run has the item, the time allowed and the tick that the schedule says. -/
lemma Fed.call_eq {k i : Nat} {c : Controller σ} {call} (h : Fed env plan deadline source k c)
    (hc : c.calls[i]? = some call) (hi : i / plan.rate * plan.tick.nanos < Clock.limit) :
    Source.item? source i = some call.item ∧ call.timeout = plan.timeout ∧
      call.instant = Clock.ceilMs (i / plan.rate * plan.tick.nanos) := by
  rw [h.calls_eq i (Array.getElem?_eq_some_iff.mp hc).1] at hc
  obtain ⟨item, hitem, rfl⟩ := Option.map_eq_some_iff.mp hc
  exact ⟨hitem, rfl, tickAt_eq hi⟩

/-- A run that has not come to an item whose tick is before the stop still dispatches. -/
lemma Paced.running_of_ahead {k i : Nat} {c : Controller σ} (h : Paced env plan deadline source k c)
    (hi : (Source.remaining source).Exceeds i) (hstop : BeforeStop env deadline (tickAt plan (i / plan.rate)))
    (hk : k ≤ i / plan.rate) : c.phase = .running := by
  obtain hp | ⟨cause, hc⟩ := running_or_stopped c.phase
  · exact hp
  · obtain ⟨t, _, hh⟩ := h.halted cause hc
    have hle := tickAt_mono plan hk
    cases hh with
    | @exhausted j _ hx =>
      have hmul : plan.rate * (j + 1) ≤ i := by
        rw [Nat.mul_comm]
        exact (Nat.le_div_iff_mul_le plan.valid.rate_pos).mp hk
      exact absurd (hi.of_le hmul) hx
    | interrupted he _ ht _ => exact absurd (hstop.interrupt _ he) (Nat.not_lt.mpr (Nat.le_trans ht hle))
    | deadlineReached hd _ ht _ => exact absurd (hstop.deadline _ hd) (Nat.not_lt.mpr (Nat.le_trans ht hle))

end Controller

namespace Simulation

/-- While a run dispatches, no item is left whose tick has passed. -/
lemma Sound.dispatched {n k i : Nat} {s : Simulation σ} (h : Sound env plan deadline source n k s)
    (hp : s.controller.phase = .running) (hi : (Source.remaining source).Exceeds i)
    (ht : tickAt plan (i / plan.rate) < s.now) : i < s.controller.calls.size := by
  apply h.paced.lt_size hi
  apply Nat.lt_of_not_le
  intro hk
  have hnow := le_tickAt h.punctual h.paced.toFed hp
  have hle := tickAt_mono plan hk
  omega

/-- So many small steps are enough to come beyond a tick. -/
def stepsTo (plan : Plan) (k : Nat) : Nat :=
  4 * k + 2 * (tickAt plan k / min plan.reportInterval.nanos Clock.far) + 4 * (plan.rate * k) + 4

/-- A run that still has to come to an item whose tick is before the stop has not taken many small steps. -/
lemma Sound.steps_lt {n k i : Nat} {s : Simulation σ} (h : Sound env plan deadline source n k s)
    (hl : System.Ledger s.system) (hi : (Source.remaining source).Exceeds i)
    (hstop : BeforeStop env deadline (tickAt plan (i / plan.rate))) (hk : k ≤ i / plan.rate) :
    n < stepsTo plan (i / plan.rate) := by
  have hp := h.paced.running_of_ahead hi hstop hk
  have hnow : s.now ≤ tickAt plan (i / plan.rate) :=
    Nat.le_trans (le_tickAt h.punctual h.paced.toFed hp) (tickAt_mono plan hk)
  have hreports : s.controller.reports.size
      ≤ tickAt plan (i / plan.rate) / min plan.reportInterval.nanos Clock.far :=
    le_div_period plan.valid.report_pos (Nat.le_trans h.reported.past hnow)
  have hsteps := h.steps_le hl
  have hrate := Nat.mul_le_mul_left plan.rate hk
  unfold stepsTo
  omega

/-- An item whose tick is before the stop is dispatched in the end. -/
lemma dispatched_in_the_end {listening : Bool} {reporter : Reporter} {i : Nat} (honest : Source.Honest source)
    (hr : Reporter.create? plan.reportInterval 0 listening = some reporter)
    (hi : (Source.remaining source).Exceeds i) (hfew : i ≤ Count.top)
    (hstop : BeforeStop env deadline (tickAt plan (i / plan.rate))) :
    i < ((Simulation.init (fresh plan source 0 reporter deadline)).run env
      (stepsTo plan (i / plan.rate))).state.controller.calls.size := by
  obtain ⟨n, s, _, hp, hst, hcase⟩ :=
    run_inv env (Simulation.init (fresh plan source 0 reporter deadline)) (stepsTo plan (i / plan.rate))
  rw [hst]
  -- a run that has not come to the item has steps left and has not ended, whatever it did so far
  by_contra hless
  have hless : s.controller.calls.size ≤ i := Nat.not_lt.mp hless
  have hl := hp.ledger (Nat.le_trans hless hfew)
  obtain ⟨k, hk⟩ := hp.sound honest hr
  have hahead : k ≤ i / plan.rate := by
    apply Nat.le_of_not_lt
    intro hlt
    have := hk.paced.lt_size hi hlt
    omega
  obtain ⟨rfl, _⟩ | ⟨_, hlast⟩ := hcase
  · exact absurd (hk.steps_lt hl hi hstop hahead) (Nat.lt_irrefl _)
  · obtain ⟨t, ht⟩ | ⟨_, hend⟩ := hk.advances honest hl
    · exact absurd ht (hlast t)
    · obtain ⟨cause, hc⟩ := isTerminated_iff.mp hend
      rw [hk.paced.running_of_ahead hi hstop hahead] at hc
      cases hc

end Simulation

/-- On the virtual clock, for an honest source and as far as the ticks are within the clock's range: after any number
of small steps, the `i`-th operation that was dispatched has the `i`-th item of the source and the time allowed, and
was dispatched exactly at its tick; while the run dispatches, no item is left whose tick has passed; and every item
whose tick is before the stop is dispatched in the end, as far as a count of 64 bits goes. -/
theorem dispatch_keeps_schedule {listening : Bool} {c : Controller σ} (honest : Source.Honest source)
    (hstart : start? plan source listening 0 = some c) :
    (∀ (n i : Nat) call, ((Simulation.init c).run env n).state.controller.calls[i]? = some call →
      i / plan.rate * plan.tick.nanos < Clock.limit →
      Source.item? source i = some call.item ∧ call.timeout = plan.timeout ∧
        call.instant = Clock.ceilMs (i / plan.rate * plan.tick.nanos)) ∧
    (∀ (n i : Nat) item, ((Simulation.init c).run env n).state.controller.phase = .running →
      Source.item? source i = some item → i / plan.rate * plan.tick.nanos < Clock.limit →
      Clock.ceilMs (i / plan.rate * plan.tick.nanos) < ((Simulation.init c).run env n).state.now →
      i < ((Simulation.init c).run env n).state.controller.calls.size) ∧
    (∀ (i : Nat) item, Source.item? source i = some item → i / plan.rate * plan.tick.nanos < Clock.limit →
      i ≤ Count.top → BeforeStop env c.deadline (Clock.ceilMs (i / plan.rate * plan.tick.nanos)) →
      ∃ n, i < ((Simulation.init c).run env n).state.controller.calls.size) := by
  obtain ⟨reporter, deadline, hr, hd, rfl⟩ := start?_inv hstart
  have hsound : ∀ n, ∃ m k, Sound env plan deadline source m k
      ((Simulation.init (fresh plan source 0 reporter deadline)).run env n).state := by
    intro n
    obtain ⟨m, s, _, hp, hst, _⟩ := run_inv env (Simulation.init (fresh plan source 0 reporter deadline)) n
    rw [hst]
    exact ⟨m, hp.sound honest hr⟩
  refine ⟨fun n i call hc hi => ?_, fun n i item hp hitem hi ht => ?_, fun i item hitem hi hfew hstop => ?_⟩
  · obtain ⟨m, k, hs⟩ := hsound n
    exact hs.paced.call_eq hc hi
  · obtain ⟨m, k, hs⟩ := hsound n
    have hx := (honest.item?_isSome_iff i).mp (Option.isSome_iff_exists.mpr ⟨item, hitem⟩)
    exact hs.dispatched hp hx (tickAt_eq hi ▸ ht)
  · have hx := (honest.item?_isSome_iff i).mp (Option.isSome_iff_exists.mpr ⟨item, hitem⟩)
    exact ⟨_, dispatched_in_the_end honest hr hx hfew (tickAt_eq hi ▸ hstop)⟩

/-- Surroundings in which every operation hangs and nothing interrupts the run. -/
def allHang : Environment := ⟨none, fun _ _ => .hangs⟩

/-- The second of two items goes out after a second, though the operation of the first one hangs. -/
theorem second_item_keeps_schedule :
    ∃ (c : Controller KeyList) (n : Nat), start? Plan.default (KeyList.ofArray #["a", "b"]) true 0 = some c ∧
      ((Simulation.init c).run allHang n).state.controller.calls[1]?
        = some ⟨1000000000, .key "b", Duration.ofSeconds 10⟩ := by
  obtain ⟨c, hc, hd⟩ : ∃ c, start? Plan.default (KeyList.ofArray #["a", "b"]) true 0 = some c ∧
      c.deadline = none := ⟨_, rfl, rfl⟩
  have hstop : BeforeStop allHang c.deadline (Clock.ceilMs (1 / 1 * Plan.default.tick.nanos)) :=
    ⟨nofun, by rw [hd]; nofun⟩
  obtain ⟨hcalls, _, hend⟩ := dispatch_keeps_schedule (KeyList.honest (KeyList.ofArray #["a", "b"])) hc
  obtain ⟨n, hn⟩ := hend 1 (.key "b") rfl (by decide) (by decide) hstop
  obtain ⟨hitem, htimeout, hinstant⟩ := hcalls n 1 _ (Array.getElem?_eq_getElem hn) (by decide)
  refine ⟨c, n, hc, ?_⟩
  rw [Array.getElem?_eq_getElem hn]
  exact congrArg some (Call.ext hinstant (Option.some.inj hitem).symm htimeout)

end Cadence.Run
