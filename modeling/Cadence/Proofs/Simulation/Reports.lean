import Cadence.Proofs.Run.Counts
import Cadence.Proofs.Simulation.Course
import Cadence.Proofs.Simulation.Dispatch

/-!
# Reports keep their cadence

On the virtual clock the `k`-th report is taken at the `k`-th beat of the report interval, rounded up to a millisecond,
and at no other instant: its timer is never so late that it would start its period anew. A report that is due together
with a tick comes first, so it counts the operations of earlier ticks only; one that is due when the run stops is taken
if the run stops in a tick, and not if it is interrupted or comes to its deadline (`Admits`).

* `OnBeat` is what holds of the reports all along a run, `Passes.onBeat` the induction.
* `reports_keep_cadence` is the closed form, as far as the reports are within the clock's range.
-/

namespace Cadence

lemma Reporter.every_lt_limit {every : Duration} {listening : Bool} {reporter : Reporter}
    (h : create? every 0 listening = some reporter) : every.nanos < Clock.limit := by
  obtain ⟨first, hf, _⟩ := Option.map_eq_some_iff.mp h
  unfold Clock.after? at hf
  split at hf
  · next hlt =>
    rw [Nat.zero_add] at hlt
    exact hlt
  · cases hf

namespace Run

/-- The instant of the `k`-th report. -/
def reportAt (plan : Plan) (k : Nat) : Nat := Clock.ceilMs (Clock.beat plan.reportInterval k)

/-- A run that stops at `stop` for this cause takes a report that is due at `t`. -/
def Admits (cause : StopCause) (stop t : Nat) : Prop :=
  match cause with
  | .exhausted => t ≤ stop
  | _ => t < stop

instance (cause : StopCause) (stop t : Nat) : Decidable (Admits cause stop t) :=
  match cause with
  | .exhausted => inferInstanceAs (Decidable (t ≤ stop))
  | .interrupted => inferInstanceAs (Decidable (t < stop))
  | .deadlineReached => inferInstanceAs (Decidable (t < stop))

/-- How many operations were dispatched before `t`. -/
def sentBefore (calls : Array Call) (t : Nat) : Nat := calls.toList.countP (·.instant < t)

/-- What the `k`-th report says of a run that has dispatched `calls`. -/
structure Tells (plan : Plan) (calls : Array Call) (k : Nat) (r : Snapshot) : Prop where
  tick : r.tick = Count.cap k
  elapsed : r.elapsed = Clock.since (reportAt plan k) 0
  sent : r.sent = Count.cap (sentBefore calls (reportAt plan k))

lemma reportAt_zero (plan : Plan) : reportAt plan 0 = 0 := by
  simp [reportAt, Clock.beat, Clock.ceilMs]

lemma reportAt_mono (plan : Plan) {j k : Nat} (h : j ≤ k) : reportAt plan j ≤ reportAt plan k :=
  Clock.ceilMs_mono (Clock.beat_mono plan.reportInterval h)

lemma reportAt_eq {plan : Plan} {k : Nat} (h : k * plan.reportInterval.nanos < Clock.limit) :
    reportAt plan k = Clock.ceilMs (k * plan.reportInterval.nanos) := by
  rw [reportAt, Clock.beat_eq h]

lemma Admits.of_le {cause : StopCause} {stop t u : Nat} (h : Admits cause stop u) (htu : t ≤ u) :
    Admits cause stop t := by
  cases cause with
  | exhausted => exact Nat.le_trans htu h
  | interrupted => exact Nat.lt_of_le_of_lt htu h
  | deadlineReached => exact Nat.lt_of_le_of_lt htu h

lemma sentBefore_append {calls more : Array Call} {t : Nat} (h : ∀ call ∈ more, t ≤ call.instant) :
    sentBefore (calls ++ more) t = sentBefore calls t := by
  have hnone : more.toList.countP (·.instant < t) = 0 := by
    rw [List.countP_eq_zero]
    intro call hcall
    have := h call (Array.mem_toList_iff.mp hcall)
    simpa using this
  simp only [sentBefore, Array.toList_append, List.countP_append, hnone, Nat.add_zero]

lemma sentBefore_of_all {calls : Array Call} {t : Nat} (h : ∀ call ∈ calls, call.instant < t) :
    sentBefore calls t = calls.size := by
  rw [sentBefore, List.countP_eq_length.mpr, Array.length_toList]
  intro call hcall
  exact decide_eq_true (h call (Array.mem_toList_iff.mp hcall))

/-- A timer that fires at the millisecond of its deadline keeps to its beat, whatever its policy. -/
lemma fire_of_punctual {i : Interval} {now : Nat} (h : now = Clock.ceilMs i.deadline) :
    (i.fire now).deadline = Clock.after i.deadline i.period := by
  have hlate : ¬ i.deadline + Interval.tolerance < now := by
    have := Clock.ceilMs_lt i.deadline
    unfold Interval.tolerance
    omega
  unfold Interval.fire Interval.following
  cases i.missed with
  | burst => rfl
  | delay => exact if_neg hlate

namespace Controller

variable {σ : Type} {env : Environment} {plan : Plan} {m now : Nat} {c d : Controller σ}

/-- The reports of a run that has come to `now` and has taken `m` of them. -/
structure OnBeat (env : Environment) (plan : Plan) (m now : Nat) (c : Controller σ) : Prop where
  size : c.reports.size = m
  timer : c.reporter.timer = ⟨Clock.beat plan.reportInterval (m + 1), plan.reportInterval, .delay⟩
  reports : ∀ k r, c.reports[k]? = some r → Tells plan c.calls (k + 1) r
  past : reportAt plan m ≤ now
  before : m ≠ 0 → BeforeStop env c.deadline (reportAt plan m)
  calls : ∀ call ∈ c.calls, call.instant < reportAt plan (m + 1)
  stopped : ∀ cause stop, c.phase.cause? = some cause → c.stopped = some stop →
    (m ≠ 0 → Admits cause stop (reportAt plan m)) ∧ ¬ Admits cause stop (reportAt plan (m + 1))

lemma OnBeat.fresh {source : σ} {listening reporter deadline}
    (h : Reporter.create? plan.reportInterval 0 listening = some reporter) :
    OnBeat env plan 0 0 (fresh plan source 0 reporter deadline) := by
  obtain ⟨first, hf, rfl⟩ := Option.map_eq_some_iff.mp h
  have htimer : first = Clock.beat plan.reportInterval 1 := by
    unfold Clock.beat Clock.after
    rw [Clock.beat, hf]
    rfl
  subst htimer
  refine ⟨rfl, rfl, fun k r hk => ?_, Nat.le_of_eq (reportAt_zero plan), fun h => absurd rfl h, fun call hcall => ?_,
    fun cause stop hc => ?_⟩
  · cases hk
  · exact absurd hcall (Array.not_mem_empty call)
  · cases hc

lemma OnBeat.mono (h : OnBeat env plan m now c) {later : Nat} (hle : now ≤ later) : OnBeat env plan m later c :=
  { h with past := Nat.le_trans h.past hle }

lemma OnBeat.settle (h : OnBeat env plan m now c) : OnBeat env plan m now c.settle where
  size := h.size
  timer := h.timer
  reports := h.reports
  past := h.past
  before := h.before
  calls := h.calls
  stopped cause stop hc := h.stopped cause stop (settle_cause c ▸ hc)

/-- A run stops after the reports that it admits. -/
lemma OnBeat.stop {cause} (h : OnBeat env plan m now c) (hp : c.phase = .running)
    (hlast : m ≠ 0 → Admits cause now (reportAt plan m)) (hnext : ¬ Admits cause now (reportAt plan (m + 1))) :
    OnBeat env plan m now (c.stop now cause) := by
  rw [stop_of_running hp]
  refine ⟨h.size, h.timer, h.reports, h.past, h.before, h.calls, fun k stop hk hs => ?_⟩
  cases hk
  cases hs
  exact ⟨hlast, hnext⟩

/-- A tick that comes before the next report is counted in none of those before it. -/
lemma OnBeat.feed {batch source} (h : OnBeat env plan m now c) (hnow : now < reportAt plan (m + 1)) :
    OnBeat env plan m now (c.feed now batch source) := by
  have hinstant : ∀ call ∈ batch.map fun item => Call.mk now item c.plan.timeout, call.instant = now := by
    intro call hcall
    obtain ⟨item, _, rfl⟩ := Array.mem_map.mp hcall
    rfl
  rw [feed_eq]
  refine ⟨h.size, h.timer, fun k r hk => ?_, h.past, h.before, fun call hcall => ?_, h.stopped⟩
  · have hr := h.reports k r hk
    have hkm : k + 1 ≤ m := by
      have := (Array.getElem?_eq_some_iff.mp hk).1
      rw [h.size] at this
      exact this
    refine ⟨hr.tick, hr.elapsed, ?_⟩
    rw [sentBefore_append]
    · exact hr.sent
    · intro call hcall
      rw [hinstant call hcall]
      exact Nat.le_trans (reportAt_mono plan hkm) h.past
  · obtain hcall | hcall := Array.mem_append.mp hcall
    · exact h.calls call hcall
    · rw [hinstant call hcall]
      exact hnow

/-- A report that is taken when it is due is the next one. -/
lemma OnBeat.report (h : OnBeat env plan m now c) (hp : c.phase = .running) (hc : Counted c) (hn : Numbered c)
    (hstarted : c.started = 0) (hnow : now = reportAt plan (m + 1)) (hbefore : BeforeStop env c.deadline now) :
    OnBeat env plan (m + 1) now (c.report now) := by
  refine ⟨?_, ?_, fun k r hk => ?_, Nat.le_of_eq hnow.symm, fun _ => hnow ▸ hbefore, fun call hcall => ?_, ?_⟩
  · simp only [Controller.report, Array.size_push, h.size]
  · have hfire : (c.reporter.timer.fire now).deadline = _ := fire_of_punctual (by rw [h.timer]; exact hnow)
    have htimer : c.reporter.timer.fire now
        = ⟨(c.reporter.timer.fire now).deadline, c.reporter.timer.period, c.reporter.timer.missed⟩ := rfl
    show c.reporter.timer.fire now = _
    rw [htimer, hfire, h.timer]
    rfl
  · -- the new report counts everything that was dispatched so far
    have htick := hn.report.tick k r hk
    simp only [Controller.report, Array.getElem?_push] at hk
    split at hk
    · next he =>
      cases hk
      rw [h.size] at he
      subst he
      refine ⟨htick, ?_, ?_⟩
      · show Clock.since now c.started = _
        rw [hstarted, hnow]
      · show c.tally.sent = _
        rw [hc.sent]
        exact congrArg Count.cap (sentBefore_of_all h.calls).symm
    · exact h.reports k r hk
  · exact Nat.lt_of_lt_of_le (h.calls call hcall) (reportAt_mono plan (Nat.le_succ _))
  · intro cause stop hcause
    have hrunning : (c.report now).phase = .running := hp
    rw [hrunning] at hcause
    cases hcause

end Controller

namespace Simulation
open Controller

variable {σ : Type} [Source σ] {env : Environment} {plan : Plan} {m : Nat}

/-- No reaction breaks the beat of the reports. -/
lemma onBeat_reaction {s : Simulation σ} {e d} (h : OnBeat env plan m s.now s.controller) (hq : Punctual env s)
    (hc : Counted s.controller) (hnum : Numbered s.controller) (hstarted : s.controller.started = 0)
    (hn : Next env s e) (hr : Reaction s.controller s.now e d) : ∃ j, OnBeat env plan j s.now d := by
  have hdeadline : s.controller.reporter.timer.deadline = Clock.beat plan.reportInterval (m + 1) := by
    rw [h.timer]
  -- as long as the run dispatches, the next report lies ahead
  have hnext : s.controller.phase = .running → s.now ≤ reportAt plan (m + 1) := by
    intro hp
    rw [reportAt, ← hdeadline]
    exact hq.report hp
  have hahead : s.controller.reporter.timer.isDue s.now = false → s.now < reportAt plan (m + 1) := by
    intro hdue
    rw [reportAt, ← hdeadline]
    exact Nat.lt_of_not_le fun hle => of_decide_eq_false hdue hle
  cases hr with
  | interrupt hp =>
    cases hn with
    | interrupt _ hi =>
      obtain ⟨i, hi, hnow⟩ := hq.interrupt_now hp hi
      refine ⟨m, h.stop hp (fun hm => ?_) (Nat.not_lt.mpr (hnext hp))⟩
      exact Nat.lt_of_lt_of_eq ((h.before hm).interrupt i hi) hnow.symm
  | completion => exact ⟨m, h.size, h.timer, h.reports, h.past, h.before, h.calls, h.stopped⟩
  | deadline hp =>
    cases hn with
    | deadline _ _ _ hd =>
      obtain ⟨d, hd, hnow⟩ := hq.deadline_now hp hd
      refine ⟨m, h.stop hp (fun hm => ?_) (Nat.not_lt.mpr (hnext hp))⟩
      exact Nat.lt_of_lt_of_eq ((h.before hm).deadline d hd) hnow.symm
  | report hp =>
    cases hn with
    | report _ hi _ hd hdue =>
      have hnow : s.now = reportAt plan (m + 1) := by
        rw [reportAt, ← hdeadline]
        exact hq.report_now hp hdue
      have hbefore : BeforeStop env s.controller.deadline s.now :=
        ⟨fun i he => lt_of_not_reached hi he, fun x hx => lt_of_not_reached hd hx⟩
      exact ⟨m + 1, h.report hp hc hnum hstarted hnow hbefore⟩
  | tick =>
    cases hn with
    | tick _ _ _ _ hdue => exact ⟨m, h.feed (hahead hdue)⟩
  | lastTick hp =>
    cases hn with
    | tick _ _ _ _ hdue =>
      have hlt := hahead hdue
      exact ⟨m, (h.feed hlt).stop (feed_running hp) (fun _ => h.past) (Nat.not_le.mpr hlt)⟩

variable {source : σ} {reporter : Reporter} {deadline : Option Nat}

/-- The reports of a run keep their beat all along. -/
theorem Passes.onBeat {n} {s : Simulation σ} {listening : Bool}
    (hreporter : Reporter.create? plan.reportInterval 0 listening = some reporter)
    (h : Passes env (init (fresh plan source 0 reporter deadline)) n s) :
    ∃ m, OnBeat env plan m s.now s.controller := by
  -- the invariant of the reports needs those of the clock, of the counts and of the numbers at every step
  induction h with
  | zero => exact ⟨0, .fresh hreporter⟩
  | succ hp ha ih =>
    obtain ⟨m, hm⟩ := ih
    have hc := hp.invariant Counted.fresh fun _ _ _ _ hc hr => hc.reaction hr
    have hnum := hp.invariant (Numbered.fresh hreporter) fun _ _ _ _ hn hr => hn.reaction hr
    cases advance_inv ha with
    | event _ hn _ hr =>
      obtain ⟨j, hj⟩ := onBeat_reaction hm hp.punctual hc hnum hp.started hn hr
      exact ⟨j, hj.settle⟩
    | deliver => exact ⟨m, hm⟩
    | jump => exact ⟨m, hm.mono (Nat.le_max_left _ _)⟩

end Simulation

open Controller Simulation

variable {σ : Type} [Source σ] {env : Environment} {plan : Plan}

omit [Source σ] in
/-- A run that stopped took the reports that its stop admits. -/
lemma Controller.OnBeat.le_size_iff {m now k : Nat} {c : Controller σ} {cause stop}
    (h : OnBeat env plan m now c) (hcause : c.phase.cause? = some cause) (hstop : c.stopped = some stop) (hk : 0 < k) :
    k ≤ c.reports.size ↔ Admits cause stop (reportAt plan k) := by
  obtain ⟨hlast, hnext⟩ := h.stopped cause stop hcause hstop
  rw [h.size]
  constructor
  · intro hle
    exact (hlast (by omega)).of_le (reportAt_mono plan hle)
  · intro hadmits
    apply Nat.le_of_not_lt
    intro hlt
    exact hnext (hadmits.of_le (reportAt_mono plan hlt))

/-- The report after every one that the stop admits is within the clock's range. -/
def ReportsInRange (plan : Plan) (cause : StopCause) (stop : Nat) : Prop :=
  ∀ k, Admits cause stop (Clock.ceilMs (k * plan.reportInterval.nanos)) →
    (k + 1) * plan.reportInterval.nanos < Clock.limit

/-- The reports that a stop admits come at multiples of the interval. -/
lemma admits_iff {cause stop} (hfirst : plan.reportInterval.nanos < Clock.limit)
    (h : ReportsInRange plan cause stop) {k : Nat} (hk : 0 < k) :
    Admits cause stop (reportAt plan k) ↔ Admits cause stop (Clock.ceilMs (k * plan.reportInterval.nanos)) := by
  constructor
  · intro hadmits
    -- each report that is admitted puts the next one within the range
    have hrange : k * plan.reportInterval.nanos < Clock.limit := by
      induction k with
      | zero => cases hk
      | succ k ih =>
        obtain rfl | hpos := Nat.eq_zero_or_pos k
        · rw [Nat.zero_add, Nat.one_mul]
          exact hfirst
        · have hprev := hadmits.of_le (reportAt_mono plan (Nat.le_succ k))
          rw [reportAt_eq (ih hpos hprev)] at hprev
          exact h k hprev
    rw [← reportAt_eq hrange]
    exact hadmits
  · intro hadmits
    have hrange : k * plan.reportInterval.nanos < Clock.limit :=
      Nat.lt_of_le_of_lt (Nat.mul_le_mul_right _ (Nat.le_succ k)) (h k hadmits)
    rw [reportAt_eq hrange]
    exact hadmits

/-- What a report says in closed form, within the clock's range. -/
lemma Tells.closed {calls : Array Call} {k : Nat} {r : Snapshot} (h : Tells plan calls k r)
    (hrange : k * plan.reportInterval.nanos < Clock.limit) :
    r.tick = Count.cap k ∧ r.elapsed.nanos = Clock.ceilMs (k * plan.reportInterval.nanos) ∧
      r.sent = Count.cap (sentBefore calls (Clock.ceilMs (k * plan.reportInterval.nanos))) := by
  have hceil := Clock.ceilMs_lt (k * plan.reportInterval.nanos)
  refine ⟨h.tick, ?_, ?_⟩
  · rw [h.elapsed, reportAt_eq hrange, Clock.since, Nat.sub_zero, Duration.clamp_nanos]
    have hlimit : Clock.limit + 1000000 ≤ Duration.limit := by decide
    omega
  · rw [h.sent, reportAt_eq hrange]

/-- On the virtual clock, after any number of small steps of a run that begins at zero: the `k`-th report carries its
number, its instant, and the number of operations dispatched before that instant, as far as a count of 64 bits goes;
while the run dispatches, the reports before the instant were taken, and none that lies ahead; and once it has stopped,
it took exactly those that the stop admits, as long as these and the next one are within the clock's range. Neither the
operations nor the interrupt make any difference to this, nor does it take an honest source. -/
theorem reports_keep_cadence {source : σ} {listening : Bool} {c : Controller σ}
    (hstart : start? plan source listening 0 = some c) {n : Nat} {s : Simulation σ}
    (hrun : ((Simulation.init c).run env n).state = s) :
    (∀ k r, s.controller.reports[k]? = some r → (k + 1) * plan.reportInterval.nanos < Clock.limit →
      r.tick = Count.cap (k + 1) ∧ r.elapsed.nanos = Clock.ceilMs ((k + 1) * plan.reportInterval.nanos) ∧
      r.sent = Count.cap (sentBefore s.controller.calls (Clock.ceilMs ((k + 1) * plan.reportInterval.nanos)))) ∧
    (s.controller.phase = .running → ∀ k, k * plan.reportInterval.nanos < Clock.limit →
      (Clock.ceilMs (k * plan.reportInterval.nanos) < s.now → k ≤ s.controller.reports.size) ∧
      (k ≤ s.controller.reports.size → Clock.ceilMs (k * plan.reportInterval.nanos) ≤ s.now)) ∧
    (∀ cause stop, s.controller.phase.cause? = some cause → s.controller.stopped = some stop →
      ReportsInRange plan cause stop → ∀ k, 0 < k →
        (k ≤ s.controller.reports.size ↔ Admits cause stop (Clock.ceilMs (k * plan.reportInterval.nanos)))) := by
  obtain ⟨reporter, deadline, hreporter, _, rfl⟩ := start?_inv hstart
  obtain ⟨_, t, _, hpasses, ht, _⟩ := run_inv env (Simulation.init (fresh plan source 0 reporter deadline)) n
  obtain rfl := ht.symm.trans hrun
  obtain ⟨m, h⟩ := hpasses.onBeat hreporter
  refine ⟨fun k r hr hrange => (h.reports k r hr).closed hrange, fun hp k hrange => ⟨fun hlt => ?_, fun hle => ?_⟩, ?_⟩
  · -- the next report lies ahead, so those before the instant were taken
    have hnext : t.now ≤ reportAt plan (m + 1) := by
      have hreport := hpasses.punctual.report hp
      rw [h.timer] at hreport
      exact hreport
    rw [h.size]
    apply Nat.le_of_not_lt
    intro hless
    have hmono := reportAt_mono plan hless
    rw [reportAt_eq hrange] at hmono
    exact absurd (Nat.le_trans hnext hmono) (Nat.not_le.mpr hlt)
  · rw [h.size] at hle
    rw [← reportAt_eq hrange]
    exact Nat.le_trans (reportAt_mono plan hle) h.past
  · intro cause stop hcause hstop hclock k hk
    rw [h.le_size_iff hcause hstop hk]
    exact admits_iff (Reporter.every_lt_limit hreporter) hclock hk

/-- A report that is due together with the tick in which the run stops is taken, and does not count that tick. -/
theorem report_comes_before_last_tick :
    ∃ (c : Controller KeyList) (s : Simulation KeyList),
      start? Plan.default (KeyList.ofArray #["a", "b"]) true 0 = some c ∧
      ((Simulation.init c).run allHang 5).state = s ∧
      s.controller.stopped = some 1000000000 ∧ s.controller.calls.size = 2 ∧ s.controller.reports.size = 1 ∧
      ∀ r, s.controller.reports[0]? = some r → r.tick = 1 ∧ r.elapsed.nanos = 1000000000 ∧ r.sent = 1 := by
  obtain ⟨c, hstart, s, hs, hstopped, hcause, hcalls⟩ : ∃ c : Controller KeyList,
      start? Plan.default (KeyList.ofArray #["a", "b"]) true 0 = some c ∧ ∃ s,
      ((Simulation.init c).run allHang 5).state = s ∧ s.controller.stopped = some 1000000000 ∧
      s.controller.phase.cause? = some .exhausted ∧
      s.controller.calls = #[⟨0, .key "a", Duration.ofSeconds 10⟩, ⟨1000000000, .key "b", Duration.ofSeconds 10⟩] := by
    refine ⟨_, rfl, _, rfl, ?_, ?_, ?_⟩ <;> decide +kernel
  have hevery : Plan.default.reportInterval.nanos = 1000000000 := by decide
  have hclock : ReportsInRange Plan.default .exhausted 1000000000 := by
    intro k hk
    have hle : k * 1000000000 ≤ 1000000000 := hevery ▸ Nat.le_trans (Clock.le_ceilMs _) hk
    rw [hevery]
    unfold Clock.limit
    omega
  obtain ⟨htold, _, hiff⟩ := reports_keep_cadence hstart hs
  have hone := (hiff _ _ hcause hstopped hclock 1 (by decide)).mpr (by decide)
  have htwo := (hiff _ _ hcause hstopped hclock 2 (by decide)).not.mpr (by decide)
  refine ⟨c, s, hstart, hs, hstopped, by rw [hcalls]; rfl, by omega, fun r hr => ?_⟩
  obtain ⟨htick, helapsed, hsent⟩ := htold 0 r hr (by decide)
  exact ⟨htick.trans (by decide), helapsed.trans (by decide), hsent.trans (by rw [hcalls]; decide)⟩

end Run
end Cadence
