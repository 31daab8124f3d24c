import Cadence.Proofs.Simulation.Reports

/-!
# The results of a run

A run that was summed up on the virtual clock brought what the behaviour of its operations says (`Course.Brought`),
whatever its source, its bounds and its clock (`simulate_brings`).
-/

namespace Cadence.Run

/-- The results of a run are what its operations brought, and its summary holds their identifiers in the order in
which they were taken in. -/
structure Course.Brought (env : Environment) (course : Course) (summary : Summary) : Prop where
  completed : summary.snapshot.completed = Count.cap (course.completions.toList.countP (·.outcome.succeeded))
  produced : summary.produced = course.completions.toList.filterMap Completion.made?
  brought : ∀ k ∈ course.completions, ∃ call, course.calls[k.operation]? = some call ∧
    (env.behaviour k.operation call.item).delivery call.instant call.timeout = (k.instant, k.outcome)

/-- What an operation brings that succeeded is what it came to by itself. -/
lemma Behaviour.finishes_of_succeeded {b : Behaviour} {start due : Nat} {timeout : Duration} {o : Outcome}
    (h : b.delivery start timeout = (due, o)) (ho : o.succeeded = true) : ∃ after, b = .finishes after o := by
  cases b with
  | finishes after outcome =>
    simp only [delivery] at h
    split at h <;> cases h
    · exact ⟨after, rfl⟩
    · cases ho
  | breaks after =>
    simp only [delivery] at h
    split at h <;> cases h <;> cases ho
  | hangs =>
    cases h
    cases ho

open Controller

variable {σ : Type} [Source σ] {env : Environment} {config : Config} {source : σ} {supply : Option Nat}
  {listening : Bool} {course : Course} {summary : Summary}

lemma Simulation.Passes.delivered {plan : Plan} {reporter deadline n} {s : Simulation σ}
    (h : Passes env (init (fresh plan source 0 reporter deadline)) n s) : Delivered env s := by
  induction h with
  | zero => exact .init
  | succ hp ha ih => exact ih.advance hp.punctual (advance_inv ha)

/-- A run that was summed up comes from a state that has ended. -/
lemma simulate_inv (h : simulate config source supply listening env = course)
    (hended : course.ending = .summed summary) :
    ∃ plan reporter deadline n s, Reporter.create? plan.reportInterval 0 listening = some reporter ∧
      Simulation.Passes env (.init (fresh plan source 0 reporter deadline)) n s ∧
      s.controller.isTerminated = true ∧
      course = .of s.controller (.summed summary) #[s.controller.closingNote] ∧
      summary = s.controller.summary s.now := by
  obtain ⟨f, _, rfl⟩ | ⟨plan, _, hbegun⟩ := simulate_cases h (by rw [hended]; exact nofun)
  · cases hended
  obtain ⟨_, rfl⟩ | ⟨c, n, s, hstart, hpasses, rfl, _⟩ := hbegun
  · cases hended
  obtain ⟨reporter, deadline, hreporter, _, rfl⟩ := start?_inv hstart
  refine ⟨plan, reporter, deadline, n, s, hreporter, hpasses, ?_⟩
  cases ha : s.advance env with
  | ended t =>
    obtain ⟨rfl, ht⟩ := Simulation.advance_ended ha
    rw [ha] at hended
    cases hended
    exact ⟨ht, rfl, rfl⟩
  | _ =>
    rw [ha] at hended
    cases hended

/-- A run that was summed up holds the results that its operations brought. -/
theorem simulate_brings (h : simulate config source supply listening env = course)
    (hended : course.ending = .summed summary) : course.Brought env summary := by
  obtain ⟨plan, reporter, deadline, n, s, _, hpasses, _, rfl, rfl⟩ := simulate_inv h hended
  have hdelivered := hpasses.delivered
  have hcounted : Counted s.controller := hpasses.invariant Counted.fresh fun _ _ _ _ hc hr => hc.reaction hr
  exact ⟨hcounted.completed, hdelivered.produced, hdelivered.taken⟩

end Cadence.Run
