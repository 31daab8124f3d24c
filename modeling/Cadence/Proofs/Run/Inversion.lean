import Cadence.Proofs.Beats
import Cadence.Run.Controller
import Mathlib.Tactic.Common

/-!
# Inversion of a step

What one event can do to a run. A step of the controller is either ignored or a `Reaction`, after which the run may
have ended (`step_inv`); it fails only when a result comes with nothing in flight or when a batch cannot be drawn
(`step_fault`). Everything that is later proved of runs goes through these two lemmas.

`feed_eq` gives the fields of a run after a batch was dispatched; the counts grow by the size of the batch, as far as
they go (`foldl_inFlight`, `foldl_tally`).
-/

namespace Cadence.Run.Controller

variable {σ : Type}

/-- What an accepted event makes of a run, before it is looked at whether the run has ended. -/
inductive Reaction [Source σ] (c : Controller σ) (now : Nat) : Event → Controller σ → Prop where
  | interrupt :
    c.phase = .running →
    Reaction c now .interrupt (c.stop now .interrupted)
  | completion {operation o inFlight} :
    c.isTerminated = false →
    c.inFlight.complete = .ok inFlight →
    Reaction c now (.completion operation o) (c.absorb now operation o inFlight)
  | deadline :
    c.phase = .running →
    Reaction c now .deadline (c.stop now .deadlineReached)
  | report :
    c.phase = .running →
    Reaction c now .report (c.report now)
  | tick {batch source} :
    c.phase = .running →
    Batch.draw c.plan.rate c.source = (.ok batch, source) →
    Source.isExhausted source = false →
    Reaction c now .tick (c.feed now batch source)
  | lastTick {batch source} :
    c.phase = .running →
    Batch.draw c.plan.rate c.source = (.ok batch, source) →
    Source.isExhausted source = true →
    Reaction c now .tick ((c.feed now batch source).stop now .exhausted)

/-- A run that begins has a reporter and, if it has to stop some time, a deadline within the clock's range. -/
theorem start?_inv {plan : Plan} {source : σ} {listening started c}
    (h : start? plan source listening started = some c) :
    ∃ reporter deadline, Reporter.create? plan.reportInterval started listening = some reporter ∧
      deadline? plan started = some deadline ∧ c = fresh plan source started reporter deadline := by
  unfold start? at h
  split at h
  · next reporter deadline hr hd =>
    cases h
    exact ⟨reporter, deadline, hr, hd, rfl⟩
  · cases h

lemma running_or_stopped (p : Phase) : p = .running ∨ ∃ cause, p.cause? = some cause := by
  cases p with
  | running => exact .inl rfl
  | draining cause => exact .inr ⟨cause, rfl⟩
  | terminated cause => exact .inr ⟨cause, rfl⟩

/-- A result is taken in only with something in flight, and nothing but its count changes. -/
lemma complete_inv {f g : InFlight} (h : f.complete = .ok g) : f.active = g.active + 1 ∧ g.closed = f.closed := by
  unfold InFlight.complete at h
  split at h
  · cases h
  · next n hn => cases h; exact ⟨hn, rfl⟩

lemma isTerminated_iff {c : Controller σ} : c.isTerminated = true ↔ ∃ k, c.phase = .terminated k := by
  unfold isTerminated
  split
  · next k h => simp [h]
  · next h => simpa using fun k hk => h k hk

/-- A completion is accepted as long as the run has not ended. -/
lemma accepts_completion {c : Controller σ} {operation o} :
    c.accepts (.completion operation o) = !c.isTerminated := by
  simp only [accepts, isTerminated]
  cases c.phase <;> rfl

/-- All other events are accepted only while the run dispatches. -/
lemma running_of_accepts {c : Controller σ} {e : Event} (h : c.accepts e = true)
    (he : ∀ operation o, e ≠ .completion operation o) : c.phase = .running := by
  rw [← Phase.isRunning_iff]
  cases e with
  | completion operation o => exact absurd rfl (he operation o)
  | deadline =>
    simp only [accepts, Bool.and_eq_true] at h
    exact h.1
  | _ => exact h

/-- What is in order stays so when the last one comes after all others. -/
lemma pairwise_push {α : Type} {R : α → α → Prop} {a : Array α} {x : α} (h : a.toList.Pairwise R)
    (hx : ∀ y ∈ a, R y x) : (a.push x).toList.Pairwise R := by
  rw [Array.toList_push, List.pairwise_append]
  refine ⟨h, List.pairwise_singleton _ _, fun y hy z hz => ?_⟩
  obtain rfl := List.mem_singleton.mp hz
  exact hx y (Array.mem_toList_iff.mp hy)

lemma stop_of_running {c : Controller σ} {now cause} (h : c.phase = .running) :
    c.stop now cause = { c with
      phase := .draining cause
      inFlight := c.inFlight.close
      stopped := some now
      notes := c.notes.push (.draining cause c.inFlight.close.active c.tally.sent) } := by
  simp [stop, h, Phase.drain?]

/-- A step that succeeds was ignored, or a reaction after which the run may have ended. -/
theorem step_inv [Source σ] {c c' : Controller σ} {now e} (h : c.step now e = .ok c') :
    (c.accepts e = false ∧ c' = c) ∨ ∃ d, Reaction c now e d ∧ c' = d.settle := by
  unfold step at h
  split at h
  · next ha =>
    right
    cases e with
    | interrupt =>
      cases h
      exact ⟨_, .interrupt (running_of_accepts ha nofun), rfl⟩
    | completion operation o =>
      have ht : c.isTerminated = false := by simpa [accepts_completion] using ha
      simp only [react, complete] at h
      cases hf : c.inFlight.complete with
      | error f => rw [hf] at h; cases h
      | ok inFlight =>
        rw [hf] at h
        cases h
        exact ⟨_, .completion ht hf, rfl⟩
    | deadline =>
      cases h
      exact ⟨_, .deadline (running_of_accepts ha nofun), rfl⟩
    | report =>
      cases h
      exact ⟨_, .report (running_of_accepts ha nofun), rfl⟩
    | tick =>
      have hr := running_of_accepts ha nofun
      simp only [react, tick] at h
      split at h
      · cases h
      · next batch source hd =>
        cases h
        refine ⟨_, ?_, rfl⟩
        split
        · next hx => exact .lastTick hr hd hx
        · next hx => exact .tick hr hd (by simpa using hx)
  · next ha =>
    cases h
    exact .inl ⟨by simpa using ha, rfl⟩

/-- A step fails only on a result with nothing in flight, or on a batch that cannot be drawn. -/
theorem step_fault [Source σ] {c : Controller σ} {now e f} (h : c.step now e = .error f) :
    (∃ operation o, e = .completion operation o ∧ c.isTerminated = false ∧ c.inFlight.active = 0 ∧
      f = .noneInFlight) ∨
    (e = .tick ∧ c.phase = .running ∧ ∃ source, Batch.draw c.plan.rate c.source = (.error f, source)) := by
  unfold step at h
  split at h
  · next ha =>
    cases e with
    | completion operation o =>
      left
      refine ⟨operation, o, rfl, by simpa [accepts_completion] using ha, ?_⟩
      simp only [react, complete, InFlight.complete] at h
      split at h
      · next h0 => cases h; exact ⟨h0, rfl⟩
      · cases h
    | tick =>
      right
      refine ⟨rfl, running_of_accepts ha nofun, ?_⟩
      simp only [react, tick] at h
      split at h
      · next g source hd => cases h; exact ⟨source, hd⟩
      · cases h
    | _ => cases h
  · cases h

/-- A batch is counted item by item. -/
lemma foldl_dispatch (now : Nat) (batch : List Item) (c : Controller σ) :
    batch.foldl (dispatch now) c = { c with
      inFlight := batch.foldl (fun f _ => f.dispatch) c.inFlight
      tally := batch.foldl (fun t _ => t.dispatch) c.tally
      calls := c.calls ++ (batch.map fun item => Call.mk now item c.plan.timeout).toArray } := by
  induction batch generalizing c with
  | nil => simp
  | cons item batch ih =>
    rw [List.foldl_cons, ih]
    simp [dispatch]

/-- What dispatching a batch leaves behind. -/
lemma feed_eq (c : Controller σ) (now : Nat) (batch : Array Item) (source : σ) :
    c.feed now batch source = { c with
      source := source
      ticker := c.ticker.fire now
      inFlight := batch.toList.foldl (fun f _ => f.dispatch) c.inFlight
      tally := batch.toList.foldl (fun t _ => t.dispatch) c.tally
      calls := c.calls ++ batch.map fun item => Call.mk now item c.plan.timeout } := by
  have hm : (batch.toList.map fun item => Call.mk now item c.plan.timeout).toArray
      = batch.map fun item => Call.mk now item c.plan.timeout := by
    rw [← Array.toList_map]
  unfold feed
  rw [← Array.foldl_toList, foldl_dispatch, ← hm]

lemma feed_running {c : Controller σ} {now batch source} (hp : c.phase = .running) :
    (c.feed now batch source).phase = .running := by
  rw [feed_eq]
  exact hp

/-- Below the top every item is counted as in flight. -/
lemma foldl_inFlight {f : InFlight} {batch : List Item} (h : f.active + batch.length ≤ Count.top) :
    batch.foldl (fun f _ => f.dispatch) f = { f with active := f.active + batch.length } := by
  induction batch generalizing f with
  | nil => rfl
  | cons item batch ih =>
    rw [List.length_cons] at h
    have hn : Count.next f.active = f.active + 1 := Count.next_eq (by omega)
    rw [List.foldl_cons, ih (by simp only [InFlight.dispatch, hn]; omega)]
    simp only [InFlight.dispatch, hn, List.length_cons]
    congr 1
    omega

/-- Every item is counted as sent, as far as the count goes. -/
lemma foldl_tally {t : Tally} {n : Nat} (h : t.sent = Count.cap n) (batch : List Item) :
    batch.foldl (fun t _ => t.dispatch) t = { t with sent := Count.cap (n + batch.length) } := by
  induction batch generalizing t n with
  | nil =>
    rw [List.length_nil, Nat.add_zero, ← h]
    rfl
  | cons item batch ih =>
    have hnext : t.dispatch.sent = Count.cap (n + 1) := by
      simp only [Tally.dispatch, h, Count.next_cap]
    rw [List.foldl_cons, ih hnext, List.length_cons, Nat.add_assoc, Nat.add_comm 1]
    rfl

/-- What a run keeps whatever it reacts to, and which timers do not move back. -/
structure Frame (c d : Controller σ) : Prop where
  plan : d.plan = c.plan
  started : d.started = c.started
  deadline : d.deadline = c.deadline
  listening : d.reporter.hasListener = c.reporter.hasListener
  period : d.reporter.timer.period = c.reporter.timer.period
  report : c.reporter.timer.deadline ≤ d.reporter.timer.deadline
  tick : c.ticker.deadline ≤ d.ticker.deadline

lemma Frame.refl (c : Controller σ) : Frame c c := ⟨rfl, rfl, rfl, rfl, rfl, Nat.le_refl _, Nat.le_refl _⟩

lemma Frame.trans {c d e : Controller σ} (h : Frame c d) (h' : Frame d e) : Frame c e where
  plan := h'.plan.trans h.plan
  started := h'.started.trans h.started
  deadline := h'.deadline.trans h.deadline
  listening := h'.listening.trans h.listening
  period := h'.period.trans h.period
  report := Nat.le_trans h.report h'.report
  tick := Nat.le_trans h.tick h'.tick

lemma Frame.settle {c d : Controller σ} (h : Frame c d) : Frame c d.settle :=
  ⟨h.plan, h.started, h.deadline, h.listening, h.period, h.report, h.tick⟩

lemma Frame.stop {c d : Controller σ} (h : Frame c d) {now cause} (hp : d.phase = .running) :
    Frame c (d.stop now cause) := by
  rw [stop_of_running hp]
  exact ⟨h.plan, h.started, h.deadline, h.listening, h.period, h.report, h.tick⟩

lemma Frame.feed {c : Controller σ} {now batch source} : Frame c (c.feed now batch source) := by
  rw [feed_eq]
  exact ⟨rfl, rfl, rfl, rfl, rfl, Nat.le_refl _, Interval.le_fire _ now⟩

lemma Reaction.frame [Source σ] {c d : Controller σ} {now e} (h : Reaction c now e d) : Frame c d := by
  cases h with
  | interrupt hp => exact (Frame.refl c).stop hp
  | completion => exact ⟨rfl, rfl, rfl, rfl, rfl, Nat.le_refl _, Nat.le_refl _⟩
  | deadline hp => exact (Frame.refl c).stop hp
  | report => exact ⟨rfl, rfl, rfl, rfl, rfl, Interval.le_fire _ now, Nat.le_refl _⟩
  | tick => exact .feed
  | lastTick hp => exact Frame.feed.stop (feed_running hp)

lemma settle_running {d : Controller σ} : d.settle.phase = .running ↔ d.phase = .running := by
  unfold settle
  cases d.phase with
  | running => simp [Phase.terminate?]
  | draining k =>
    simp only [Phase.terminate?]
    split <;> simp
  | terminated k => simp [Phase.terminate?]

lemma settle_cause (d : Controller σ) : d.settle.phase.cause? = d.phase.cause? := by
  unfold settle
  cases d.phase with
  | running => rfl
  | draining k =>
    simp only [Phase.terminate?]
    split <;> rfl
  | terminated k => rfl

lemma Reaction.running [Source σ] {c d : Controller σ} {now e} (h : Reaction c now e d)
    (hd : d.phase = .running) : c.phase = .running := by
  cases h with
  | interrupt hp => exact hp
  | completion => exact hd
  | deadline hp => exact hp
  | report hp => exact hp
  | tick hp => exact hp
  | lastTick hp => exact hp

/-- No reaction takes a dispatched operation back. -/
lemma Reaction.calls_le [Source σ] {c d : Controller σ} {now e} (h : Reaction c now e d) :
    c.calls.size ≤ d.calls.size := by
  cases h with
  | interrupt hp => exact Nat.le_of_eq (by rw [stop_of_running hp])
  | completion => exact Nat.le_refl _
  | deadline hp => exact Nat.le_of_eq (by rw [stop_of_running hp])
  | report => exact Nat.le_refl _
  | tick => simp [feed_eq]
  | lastTick hp =>
    rw [stop_of_running (feed_running hp)]
    simp [feed_eq]

/-- Only a report adds to the reports. -/
lemma Reaction.reports_eq [Source σ] {c d : Controller σ} {now e} (h : Reaction c now e d) (he : e ≠ .report) :
    d.reports = c.reports := by
  cases h with
  | interrupt hp => rw [stop_of_running hp]
  | completion => rfl
  | deadline hp => rw [stop_of_running hp]
  | report => exact absurd rfl he
  | tick => rw [feed_eq]
  | lastTick hp => rw [stop_of_running (feed_running hp), feed_eq]

/-- A reaction leaves the reports alone or adds one that shows the figures before it. -/
lemma Reaction.reports [Source σ] {c d : Controller σ} {now e} (h : Reaction c now e d) :
    d.reports = c.reports ∨ ∃ r, d.reports = c.reports.push r ∧ r.sent = c.tally.sent ∧
      r.completed = c.tally.completed ∧ r.failed = c.tally.failed ∧ r.inFlight = c.inFlight.active := by
  by_cases he : e = .report
  · subst he
    cases h with
    | report => exact .inr ⟨_, rfl, rfl, rfl, rfl, rfl⟩
  · exact .inl (h.reports_eq he)

/-- Only a result that is taken in adds to the results taken. -/
lemma Reaction.completions [Source σ] {c d : Controller σ} {now e} (h : Reaction c now e d)
    (he : ∀ operation o, e ≠ .completion operation o) : d.completions = c.completions := by
  cases h with
  | interrupt hp => rw [stop_of_running hp]
  | completion => exact absurd rfl (he _ _)
  | deadline hp => rw [stop_of_running hp]
  | report => rfl
  | tick => rw [feed_eq]
  | lastTick hp => rw [stop_of_running (feed_running hp), feed_eq]

end Cadence.Run.Controller
