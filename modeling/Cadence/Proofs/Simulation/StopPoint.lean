import Cadence.Proofs.Simulation.Dispatch
import Cadence.Proofs.Simulation.Course
import Mathlib.Data.Set.Card

/-!
# Where and why a run stops

The instant at which a run on the virtual clock stops dispatching, the cause, and the number of operations that it
sent by then have a closed form in the configuration, the number of items and the instant of the interrupt
(`StopPoint`). It holds as long as no deadline is out of the clock's range (`run_stops_in_closed_form`). Beyond that
range the clock puts thirty years for a tick that it cannot represent, so a run that goes on for longer ticks once more
(`far_tick_is_not_in_closed_form`).
-/

namespace Cadence.Run

open Controller Simulation

/-- The first millisecond of the interrupt or of the deadline, whichever comes first; nothing if there is neither. -/
def stop? (env : Environment) (config : Config) : Option Nat :=
  ((env.interrupt.map Clock.ceilMs).toList
    ++ (config.maxDuration.map fun d => Clock.ceilMs d.nanos).toList).min?

/-- The `k`-th tick comes before the run has to stop. -/
def TickBefore (env : Environment) (config : Config) (k : Nat) : Prop :=
  ∀ t, stop? env config = some t → Clock.ceilMs (k * config.tick.nanos) < t

/-- How many ticks come before the run has to stop. -/
noncomputable def ticksBefore (env : Environment) (config : Config) : ℕ∞ := {k | TickBefore env config k}.encard

/-- How many ticks `n` items take, at least one. -/
def ticksOf (config : Config) (n : Nat) : Nat := max 1 ((n + config.rate - 1) / config.rate)

/-- The run is interrupted at its deadline at the latest. -/
def InterruptFirst (env : Environment) (config : Config) : Prop :=
  ∃ i, env.interrupt = some i ∧ ∀ d, config.maxDuration = some d → Clock.ceilMs i ≤ Clock.ceilMs d.nanos

/-- Where and why a run stops that has `r` items: if there are enough ticks for all of them, at the tick that takes
the last one; otherwise when it has to, after a full batch for every tick before. -/
structure StopPoint (env : Environment) (config : Config) (r : Remaining) (course : Course) (summary : Summary) :
    Prop where
  exhausted : ∀ n, r = .finite n → ticksOf config n ≤ ticksBefore env config →
    summary.cause = .exhausted ∧
      course.stopped = some (Clock.ceilMs ((ticksOf config n - 1) * config.tick.nanos)) ∧
      summary.snapshot.sent = n
  stopped : (∀ n, r = .finite n → ticksBefore env config < ticksOf config n) →
    summary.snapshot.sent = config.rate * ticksBefore env config ∧
      (∃ t, stop? env config = some t ∧ course.stopped = some t) ∧
      (InterruptFirst env config → summary.cause = .interrupted) ∧
      (¬ InterruptFirst env config → summary.cause = .deadlineReached)

variable {env : Environment} {config : Config}

/-- A run stops at its interrupt and at its deadline at the latest. -/
lemma stop?_le {t : Nat} (h : (∃ i, env.interrupt = some i ∧ Clock.ceilMs i = t) ∨
    ∃ d, config.maxDuration = some d ∧ Clock.ceilMs d.nanos = t) : ∃ u, stop? env config = some u ∧ u ≤ t := by
  have hmem : t ∈ (env.interrupt.map Clock.ceilMs).toList
      ++ (config.maxDuration.map fun d => Clock.ceilMs d.nanos).toList := by
    simpa only [List.mem_append, Option.mem_toList, Option.map_eq_some_iff] using h
  unfold stop?
  cases hm : List.min? ((env.interrupt.map Clock.ceilMs).toList
      ++ (config.maxDuration.map fun d => Clock.ceilMs d.nanos).toList) with
  | none =>
    rw [List.min?_eq_none_iff.mp hm] at hmem
    cases hmem
  | some u => exact ⟨u, rfl, (List.min?_eq_some_iff.mp hm).2 t hmem⟩

/-- A run that is interrupted at its deadline at the latest stops then. -/
lemma stop?_eq_interrupt {i : Nat} (hi : env.interrupt = some i)
    (hd : ∀ d, config.maxDuration = some d → Clock.ceilMs i ≤ Clock.ceilMs d.nanos) :
    stop? env config = some (Clock.ceilMs i) := by
  refine List.min?_eq_some_iff.mpr ⟨?_, fun t ht => ?_⟩
  · simp [hi]
  · simp only [List.mem_append, Option.mem_toList, Option.map_eq_some_iff] at ht
    obtain ⟨j, hj, rfl⟩ | ⟨d, hmax, rfl⟩ := ht
    · obtain rfl := Option.some.inj (hi.symm.trans hj)
      exact Nat.le_refl _
    · exact hd d hmax

/-- A run that is not interrupted before its deadline stops then. -/
lemma stop?_eq_deadline {d : Duration} (hd : config.maxDuration = some d)
    (hi : ∀ i, env.interrupt = some i → Clock.ceilMs d.nanos < Clock.ceilMs i) :
    stop? env config = some (Clock.ceilMs d.nanos) := by
  refine List.min?_eq_some_iff.mpr ⟨?_, fun t ht => ?_⟩
  · simp [hd]
  · simp only [List.mem_append, Option.mem_toList, Option.map_eq_some_iff] at ht
    obtain ⟨i, hint, rfl⟩ | ⟨d', hmax, rfl⟩ := ht
    · exact Nat.le_of_lt (hi i hint)
    · obtain rfl := Option.some.inj (hd.symm.trans hmax)
      exact Nat.le_refl _

/-- A run stops at its interrupt or at its deadline. -/
lemma stop?_cases {u : Nat} (h : stop? env config = some u) :
    (∃ i, env.interrupt = some i ∧ Clock.ceilMs i = u) ∨
      ∃ d, config.maxDuration = some d ∧ Clock.ceilMs d.nanos = u := by
  have hmem := (List.min?_eq_some_iff.mp h).1
  simpa only [List.mem_append, Option.mem_toList, Option.map_eq_some_iff] using hmem

/-- What comes before the interrupt and before the deadline comes before the stop. -/
lemma beforeStop_iff {t : Nat} :
    BeforeStop env (config.maxDuration.map Duration.nanos) t ↔ ∀ u, stop? env config = some u → t < u := by
  constructor
  · intro h u hu
    obtain ⟨i, hi, rfl⟩ | ⟨d, hd, rfl⟩ := stop?_cases hu
    · exact h.interrupt i hi
    · exact h.deadline d.nanos (by rw [hd]; rfl)
  · refine fun h => ⟨fun i hi => ?_, fun x hx => ?_⟩
    · obtain ⟨u, hu, hle⟩ : ∃ u, stop? env config = some u ∧ u ≤ Clock.ceilMs i := stop?_le (.inl ⟨i, hi, rfl⟩)
      exact Nat.lt_of_lt_of_le (h u hu) hle
    · obtain ⟨d, hd, rfl⟩ := Option.map_eq_some_iff.mp hx
      obtain ⟨u, hu, hle⟩ : ∃ u, stop? env config = some u ∧ u ≤ Clock.ceilMs d.nanos :=
        stop?_le (.inr ⟨d, hd, rfl⟩)
      exact Nat.lt_of_lt_of_le (h u hu) hle

/-- So many ticks come before the stop as there are up to the first one that does not. -/
lemma ticksBefore_eq {k : Nat} (h : ∀ j, TickBefore env config j ↔ j < k) : ticksBefore env config = k := by
  have hset : {j | TickBefore env config j} = ↑(Finset.range k) := by
    ext j
    simpa using h j
  rw [ticksBefore, hset, Set.encard_coe_eq_coe_finsetCard, Finset.card_range]

/-- If the first `k` ticks come before the stop, there are so many at least. -/
lemma le_ticksBefore {k : Nat} (h : ∀ j < k, TickBefore env config j) : k ≤ ticksBefore env config := by
  have hsub : ↑(Finset.range k) ⊆ {j | TickBefore env config j} := by
    intro j hj
    exact h j (Finset.mem_range.mp (Finset.mem_coe.mp hj))
  have hle := Set.encard_le_encard hsub
  rwa [Set.encard_coe_eq_coe_finsetCard, Finset.card_range] at hle

variable (hvalid : config.Valid)

/-- Items that leave nothing after one more tick take so many ticks. -/
lemma ticksOf_eq {n k : Nat} (hm : MoreAfter ⟨config, hvalid⟩ (.finite n) k)
    (hx : ¬ (Remaining.finite n).Exceeds (config.rate * (k + 1))) : ticksOf config n = k + 1 := by
  have hpos := hvalid.rate_pos
  have hle : n ≤ config.rate * k + config.rate := by
    have : ¬ config.rate * (k + 1) < n := hx
    rw [Nat.mul_succ] at this
    omega
  unfold ticksOf
  obtain rfl | hlt := hm
  · have hdiv : (n + config.rate - 1) / config.rate < 2 := (Nat.div_lt_iff_lt_mul hpos).mpr (by omega)
    omega
  · have hlt : config.rate * k < n := hlt
    have hdiv : (n + config.rate - 1) / config.rate = k + 1 := by
      refine Nat.div_eq_of_lt_le ?_ ?_
      · rw [Nat.succ_mul, Nat.mul_comm]
        omega
      · rw [Nat.succ_mul, Nat.succ_mul, Nat.mul_comm]
        omega
    omega

/-- Items of which some are left after so many ticks take more. -/
lemma lt_ticksOf {n k : Nat} (hm : MoreAfter ⟨config, hvalid⟩ (.finite n) k) : k < ticksOf config n := by
  unfold ticksOf
  obtain rfl | hlt := hm
  · omega
  · have hlt : config.rate * k < n := hlt
    have hdiv : k + 1 ≤ (n + config.rate - 1) / config.rate := by
      apply (Nat.le_div_iff_mul_le hvalid.rate_pos).mpr
      rw [Nat.succ_mul, Nat.mul_comm]
      omega
    omega

/-- As long as something is left, every tick draws a full batch. -/
lemma drawn_of_more {plan : Plan} {r : Remaining} {k : Nat} (h : MoreAfter plan r k) : drawn plan r k = plan.rate * k := by
  obtain rfl | h := h
  · exact drawn_zero plan r
  · exact Remaining.limit_of_exceeds h

variable {σ : Type} [Source σ] {source : σ}

/-- Every tick before the stop that leaves something is followed by one within the clock's range. -/
def TicksInRange (env : Environment) (config : Config) (r : Remaining) : Prop :=
  ∀ k, TickBefore env config k → r.Exceeds (config.rate * (k + 1)) → (k + 1) * config.tick.nanos < Clock.limit

/-- The ticks of a run up to one at which something is left come at multiples of the period. -/
lemma tickAt_of_more {k : Nat} {c : Controller σ}
    (h : Fed env ⟨config, hvalid⟩ (config.maxDuration.map Duration.nanos) source k c)
    (hclock : TicksInRange env config (Source.remaining source)) {j : Nat} (hj : j ≤ k)
    (hm : MoreAfter ⟨config, hvalid⟩ (Source.remaining source) j) :
    tickAt ⟨config, hvalid⟩ j = Clock.ceilMs (j * config.tick.nanos) := by
  have hrange : j * config.tick.nanos < Clock.limit := by
    induction j with
    | zero =>
      rw [Nat.zero_mul]
      decide
    | succ j ih =>
      have hprev : tickAt ⟨config, hvalid⟩ j = Clock.ceilMs (j * config.tick.nanos) :=
        tickAt_eq (ih (Nat.le_of_succ_le hj) hm.pred)
      refine hclock j (fun u hu => ?_) (hm.resolve_left (Nat.succ_ne_zero j))
      exact lt_of_eq_of_lt hprev.symm (beforeStop_iff.mp (h.before j hj) u hu)
  exact tickAt_eq hrange

/-- The ticks that a run has done come before the stop. -/
lemma tickBefore_of_lt {k : Nat} {c : Controller σ}
    (h : Fed env ⟨config, hvalid⟩ (config.maxDuration.map Duration.nanos) source k c)
    (hclock : TicksInRange env config (Source.remaining source)) {j : Nat} (hj : j < k)
    (hm : MoreAfter ⟨config, hvalid⟩ (Source.remaining source) j) : TickBefore env config j := by
  intro u hu
  have hat := tickAt_of_more hvalid h hclock (Nat.le_of_lt hj) hm
  exact lt_of_eq_of_lt hat.symm (beforeStop_iff.mp (h.before j hj) u hu)

/-- A run that stopped because it had to did so after a full batch for every tick before. -/
lemma stopped_after_full_batches {k t : Nat} {c : Controller σ}
    (h : Fed env ⟨config, hvalid⟩ (config.maxDuration.map Duration.nanos) source k c)
    (hclock : TicksInRange env config (Source.remaining source))
    (hm : MoreAfter ⟨config, hvalid⟩ (Source.remaining source) k)
    (hstop : stop? env config = some t) (ht : t ≤ tickAt ⟨config, hvalid⟩ k) :
    ticksBefore env config = k ∧ c.calls.size = config.rate * k ∧
      ∀ n, Source.remaining source = .finite n → k < ticksOf config n := by
  refine ⟨ticksBefore_eq fun j => ⟨fun hj => ?_, fun hj => ?_⟩, ?_, fun n hn => ?_⟩
  · apply Nat.lt_of_not_le
    intro hle
    have hat := tickAt_of_more hvalid h hclock (Nat.le_refl k) hm
    have hmono := Clock.ceilMs_mono (Nat.mul_le_mul_right config.tick.nanos hle)
    have hlt : Clock.ceilMs (j * config.tick.nanos) < t := hj t hstop
    exact absurd (Nat.le_trans ht (Nat.le_trans (Nat.le_of_eq hat) hmono)) (Nat.not_le.mpr hlt)
  · exact tickBefore_of_lt hvalid h hclock hj (hm.of_le (Nat.le_of_lt hj))
  · rw [h.size_eq, drawn_of_more hm]
  · rw [hn] at hm
    exact lt_ticksOf hvalid hm

/-- A run that took all items stopped at the tick that took the last ones. -/
lemma stopPoint_of_exhausted {k : Nat} {c : Controller σ} {course summary}
    (h : Fed env ⟨config, hvalid⟩ (config.maxDuration.map Duration.nanos) source (k + 1) c)
    (hclock : TicksInRange env config (Source.remaining source))
    (hm : MoreAfter ⟨config, hvalid⟩ (Source.remaining source) k)
    (hx : ¬ (Source.remaining source).Exceeds (config.rate * (k + 1)))
    (hcause : summary.cause = .exhausted) (hstopped : course.stopped = some (tickAt ⟨config, hvalid⟩ k))
    (hsent : summary.snapshot.sent = c.calls.size) :
    StopPoint env config (Source.remaining source) course summary := by
  have hticks : ∀ n, Source.remaining source = .finite n → ticksOf config n = k + 1 := by
    intro n hn
    rw [hn] at hm hx
    exact ticksOf_eq hvalid hm hx
  have hbefore : ↑(k + 1) ≤ ticksBefore env config := le_ticksBefore fun i hi =>
    tickBefore_of_lt hvalid h hclock hi (hm.of_le (Nat.le_of_lt_succ hi))
  refine ⟨fun n hn _ => ⟨hcause, ?_, ?_⟩, fun hless => ?_⟩
  · rw [hstopped, tickAt_of_more hvalid h hclock (Nat.le_succ k) hm, hticks n hn, Nat.add_sub_cancel]
  · rw [hn] at hx
    rw [hsent, h.size_eq, hn]
    exact Remaining.limit_of_not_exceeds hx
  · cases hn : Source.remaining source with
    | finite n =>
      have hlt := hless n hn
      rw [hticks n hn] at hlt
      exact absurd hbefore (not_le_of_gt hlt)
    | unbounded =>
      rw [hn] at hx
      exact absurd trivial hx

/-- A run that had to stop sent a full batch for every tick before. -/
lemma stopPoint_of_stopped {k t : Nat} {c : Controller σ} {course summary}
    (h : Fed env ⟨config, hvalid⟩ (config.maxDuration.map Duration.nanos) source k c)
    (hclock : TicksInRange env config (Source.remaining source))
    (hm : MoreAfter ⟨config, hvalid⟩ (Source.remaining source) k)
    (hstop : stop? env config = some t) (ht : t ≤ tickAt ⟨config, hvalid⟩ k)
    (hstopped : course.stopped = some t) (hsent : summary.snapshot.sent = c.calls.size)
    (hfirst : InterruptFirst env config → summary.cause = .interrupted)
    (hlast : ¬ InterruptFirst env config → summary.cause = .deadlineReached) :
    StopPoint env config (Source.remaining source) course summary := by
  obtain ⟨hbefore, hsize, hmore⟩ := stopped_after_full_batches hvalid h hclock hm hstop ht
  refine ⟨fun n hn hle => ?_, fun _ => ⟨?_, ⟨t, hstop, hstopped⟩, hfirst, hlast⟩⟩
  · rw [hbefore, Nat.cast_le] at hle
    exact absurd (hmore n hn) (Nat.not_lt.mpr hle)
  · rw [hsent, hsize, hbefore, Nat.cast_mul]

/-- A run that has ended stopped where and why it should. -/
lemma stopPoint_of_ended {n k : Nat} {s : Simulation σ} {ending notes}
    (h : Sound env ⟨config, hvalid⟩ (config.maxDuration.map Duration.nanos) source n k s)
    (hl : System.Ledger s.system) (hclock : TicksInRange env config (Source.remaining source))
    (ht : s.controller.isTerminated = true) :
    StopPoint env config (Source.remaining source) (Course.of s.controller ending notes)
      (s.controller.summary s.now) := by
  obtain ⟨cause, hphase⟩ := isTerminated_iff.mp ht
  have hcause : (s.controller.summary s.now).cause = cause := by
    show s.controller.phase.cause?.getD .exhausted = cause
    rw [hphase]
    rfl
  have hsent : (s.controller.summary s.now).snapshot.sent = s.controller.calls.size := hl.sent
  obtain ⟨t, hstopped, hh⟩ := h.paced.halted cause (by rw [hphase]; rfl)
  have hf := h.paced.toFed
  cases hh with
  | exhausted hm hx => exact stopPoint_of_exhausted hvalid hf hclock hm hx hcause hstopped hsent
  | @interrupted _ i hi hd hle hm =>
    have hd : ∀ d, config.maxDuration = some d → Clock.ceilMs i ≤ Clock.ceilMs d.nanos :=
      fun d he => hd d.nanos (by rw [he]; rfl)
    have hfirst : InterruptFirst env config := ⟨i, hi, hd⟩
    exact stopPoint_of_stopped hvalid hf hclock hm (stop?_eq_interrupt hi hd) hle hstopped hsent (fun _ => hcause)
      (fun hn => absurd hfirst hn)
  | @deadlineReached _ x hx hi hle hm =>
    obtain ⟨d, hd, rfl⟩ := Option.map_eq_some_iff.mp hx
    have hlast : ¬ InterruptFirst env config := by
      rintro ⟨i, he, hle⟩
      exact absurd (hi i he) (Nat.not_lt.mpr (hle d hd))
    exact stopPoint_of_stopped hvalid hf hclock hm (stop?_eq_deadline hd hi) hle hstopped hsent
      (fun hn => absurd hn hlast) (fun _ => hcause)

/-- A run on the virtual clock whose source is honest and which has to stop some time stops where and why the closed
form says, whatever its operations do and however often it reports, as long as it dispatches fewer than `2 ^ 64`
operations and no deadline is out of the clock's range. -/
theorem run_stops_in_closed_form {listening : Bool} {course : Course} (hvalid : config.Valid)
    (honest : Source.Honest source)
    (hbounded : (Source.remaining source).count?.isSome = true ∨ config.maxDuration.isSome = true ∨
      env.interrupt.isSome = true)
    (hreport : config.reportInterval.nanos < Clock.limit)
    (hmax : ∀ d, config.maxDuration = some d → d.nanos < Clock.limit)
    (hclock : TicksInRange env config (Source.remaining source))
    (hcourse : simulate config source (Source.remaining source).count? listening env = course)
    (hfew : course.calls.size ≤ Count.top) :
    ∃ summary, course.ending = .summed summary ∧ StopPoint env config (Source.remaining source) course summary := by
  subst hcourse
  obtain ⟨deadline, n, k, s, hd, hs, hl, ht, _, hcourse⟩ :=
    simulate_ends hvalid honest hbounded hreport hmax hfew
  obtain rfl := deadline?_inv hd
  rw [hcourse]
  exact ⟨_, rfl, stopPoint_of_ended hvalid hs hl hclock ht⟩

/-- Surroundings in which every operation succeeds at once and nothing interrupts the run. -/
def allSucceed : Environment := ⟨none, fun _ _ => .finishes Duration.zero (.success Duration.zero)⟩

/-- A run of two items a second stops after a second with both sent. -/
theorem two_items_stop_in_closed_form :
    ∃ course summary, simulate Config.default (KeyList.ofArray #["a", "b"]) (some 2) true allSucceed = course ∧
      course.ending = .summed summary ∧ summary.cause = .exhausted ∧ course.stopped = some 1000000000 ∧
      summary.snapshot.sent = 2 := by
  obtain ⟨course, hcourse⟩ : ∃ course,
      simulate Config.default (KeyList.ofArray #["a", "b"]) (some 2) true allSucceed = course := ⟨_, rfl⟩
  have hfew : course.calls.size ≤ Count.top := by
    have hsize : course.calls.size = 2 := by
      rw [← hcourse]
      decide +kernel
    rw [hsize]
    decide
  have hclock : TicksInRange allSucceed Config.default (.finite 2) := by
    intro k _ hk
    have hk : 1 * (k + 1) < 2 := hk
    have hzero : k = 0 := by omega
    rw [hzero]
    decide
  have hticks : ticksOf Config.default 2 ≤ ticksBefore allSucceed Config.default :=
    le_ticksBefore fun j _ => nofun
  obtain ⟨summary, hend, hpoint⟩ := run_stops_in_closed_form Config.default_valid
    (KeyList.honest (KeyList.ofArray #["a", "b"])) (.inl rfl) (by decide) nofun hclock hcourse hfew
  obtain ⟨hcause, hstopped, hsent⟩ := hpoint.exhausted 2 rfl hticks
  exact ⟨course, summary, hcourse, hend, hcause, hstopped.trans (by decide), hsent⟩

/-- A configuration whose second tick is out of the clock's range, and which goes on for forty years. -/
def farTick : Config where
  rate := 1
  tick := Duration.ofSeconds 18446744073709551615
  reportInterval := Duration.ofSeconds 1576800000
  timeout := Duration.ofSeconds 10
  maxDuration := some (Duration.ofSeconds 1261440000)

/-- How many operations the summary says were sent, if there is one. -/
def Ending.sent? : Ending → Option Nat
  | .summed summary => some summary.snapshot.sent
  | _ => none

/-- A run whose second tick is out of the clock's range, and which goes on for forty years, does not stop in closed
form: it ticks after thirty years. -/
theorem far_tick_is_not_in_closed_form :
    farTick.Valid ∧ Source.Honest (⟨1, none, 0⟩ : Payloads) ∧ farTick.maxDuration.isSome = true ∧
      ¬ ∃ summary, (simulate farTick (⟨1, none, 0⟩ : Payloads) none true allSucceed).ending = .summed summary ∧
        StopPoint allSucceed farTick .unbounded
          (simulate farTick (⟨1, none, 0⟩ : Payloads) none true allSucceed) summary := by
  refine ⟨by constructor <;> decide, Payloads.honest _, rfl, ?_⟩
  rintro ⟨summary, hend, h⟩
  have hstop : stop? allSucceed farTick = some 1261440000000000000 := by decide
  -- no multiple of the period but zero comes before the stop
  have hone : ticksBefore allSucceed farTick = (1 : Nat) := by
    refine ticksBefore_eq fun j => ⟨fun hj => ?_, fun hj u hu => ?_⟩
    · have hlt := hj _ hstop
      have hle := Clock.le_ceilMs (j * farTick.tick.nanos)
      have hp : farTick.tick.nanos = 18446744073709551615000000000 := by decide
      rw [hp] at hle hlt
      omega
    · obtain rfl := Nat.lt_one_iff.mp hj
      obtain rfl := Option.some.inj (hstop.symm.trans hu)
      decide
  -- but the run ticks a second time, thirty years after the first
  have hsent : (simulate farTick (⟨1, none, 0⟩ : Payloads) none true allSucceed).ending.sent? = some 2 := by
    decide +kernel
  rw [hend] at hsent
  have htwo : summary.snapshot.sent = 2 := Option.some.inj hsent
  have hform := (h.stopped nofun).1
  rw [hone, htwo] at hform
  exact absurd hform (by decide)

end Cadence.Run
