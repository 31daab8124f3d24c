import Cadence.Proofs.Run.Inversion

/-!
# The phases of a run

A run dispatches, drains and ends. `Orderly` says how its phase, its count of operations in flight and the instant at
which it stopped hang together between two steps; no step breaks it (`Orderly.step`).
-/

namespace Cadence.Run.Controller

variable {σ : Type}

/-- Nothing more can be dispatched exactly once the run has stopped, and the run has ended exactly once there is
nothing left to wait for. -/
structure Orderly (c : Controller σ) : Prop where
  closed : c.inFlight.closed = true ↔ c.phase ≠ .running
  ended : c.isTerminated = true ↔ c.inFlight.isComplete = true
  stopped : c.stopped.isSome = true ↔ c.phase ≠ .running

lemma Orderly.fresh {plan : Plan} {source : σ} {started reporter deadline} :
    Orderly (fresh plan source started reporter deadline) where
  closed := by simp [Controller.fresh, InFlight.empty]
  ended := by simp [Controller.fresh, InFlight.empty, isTerminated, InFlight.isComplete]
  stopped := by simp [Controller.fresh]

/-- A run that has not ended is orderly once it was looked at whether it has. -/
lemma Orderly.settle {d : Controller σ} (ht : d.isTerminated = false)
    (hc : d.inFlight.closed = true ↔ d.phase ≠ .running)
    (hs : d.stopped.isSome = true ↔ d.phase ≠ .running) : Orderly d.settle := by
  unfold Controller.settle
  cases hp : d.phase with
  | running =>
    rw [hp] at hc hs
    have hf : d.inFlight.closed = false := by simpa using hc
    refine ⟨?_, ?_, ?_⟩
    · simp [Phase.terminate?, hf]
    · simp [Phase.terminate?, isTerminated, InFlight.isComplete, hf]
    · simpa [Phase.terminate?] using hs
  | draining cause =>
    rw [hp] at hc hs
    have hf : d.inFlight.closed = true := hc.mpr (by simp)
    have hsome : d.stopped.isSome = true := hs.mpr (by simp)
    by_cases hi : d.inFlight.isComplete = true
    · refine ⟨?_, ?_, ?_⟩
      · simp [Phase.terminate?, hi, hf]
      · simp [Phase.terminate?, isTerminated, hi]
      · simp [Phase.terminate?, hi, hsome]
    · refine ⟨?_, ?_, ?_⟩
      · simp [Phase.terminate?, hi, hf]
      · simp [Phase.terminate?, isTerminated, hi]
      · simp [Phase.terminate?, hi, hsome]
  | terminated cause =>
    have := isTerminated_iff.mpr ⟨cause, hp⟩
    simp [ht] at this

/-- Stopping a run that dispatches leaves it to be settled. -/
lemma Orderly.settle_stop {c : Controller σ} {now cause} (hp : c.phase = .running) :
    Orderly (c.stop now cause).settle := by
  rw [stop_of_running hp]
  apply Orderly.settle
  · rfl
  · simp [InFlight.close]
  · simp

lemma Orderly.running {c : Controller σ} (h : Orderly c) (hp : c.phase = .running) :
    c.inFlight.closed = false ∧ c.stopped = none ∧ c.isTerminated = false := by
  have hc := h.closed
  have hs := h.stopped
  rw [hp] at hc hs
  refine ⟨by simpa using hc, by simpa using hs, by simp [isTerminated, hp]⟩

/-- Nothing is in flight any more once a run has ended. -/
lemma Orderly.active_of_terminated {c : Controller σ} (h : Orderly c) (ht : c.isTerminated = true) :
    c.inFlight.active = 0 := by
  have hc := h.ended.mp ht
  simp only [InFlight.isComplete, Bool.and_eq_true, beq_iff_eq] at hc
  exact hc.2

lemma closed_foldl (batch : List Item) (f : InFlight) :
    (batch.foldl (fun f _ => f.dispatch) f).closed = f.closed := by
  induction batch generalizing f with
  | nil => rfl
  | cons item batch ih => exact ih f.dispatch

/-- No reaction to anything leaves a run in disorder. -/
lemma Orderly.reaction [Source σ] {c d : Controller σ} {now e} (h : Orderly c) (hr : Reaction c now e d) :
    Orderly d.settle := by
  cases hr with
  | interrupt hp => exact .settle_stop hp
  | @completion operation o inFlight ht hf =>
    have hc : inFlight.closed = c.inFlight.closed := (complete_inv hf).2
    exact .settle ht (by simpa [Controller.absorb, hc] using h.closed) h.stopped
  | deadline hp => exact .settle_stop hp
  | report hp =>
    obtain ⟨hf, hs, ht⟩ := h.running hp
    exact .settle ht h.closed h.stopped
  | @tick batch source hp hd hx =>
    obtain ⟨hf, hs, ht⟩ := h.running hp
    rw [feed_eq]
    exact .settle ht (by rw [closed_foldl]; exact h.closed) h.stopped
  | lastTick hp => exact .settle_stop (feed_running hp)

/-- No step leaves a run in disorder. -/
theorem Orderly.step [Source σ] {c c' : Controller σ} {now e} (h : Orderly c) (hs : c.step now e = .ok c') :
    Orderly c' := by
  obtain ⟨_, rfl⟩ | ⟨d, hr, rfl⟩ := step_inv hs
  · exact h
  · exact h.reaction hr

end Cadence.Run.Controller
