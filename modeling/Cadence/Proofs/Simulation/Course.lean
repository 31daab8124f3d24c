import Cadence.Proofs.Run.Start
import Cadence.Proofs.Simulation.Termination

/-!
# The course of a run

What is left of a whole run: if dispatch has to stop some time, its course is the trace of a state that a run keeps to
and that has ended (`simulate_ends`). However a run comes out, it does so in a small step from a state that it passed
through, if it began at all (`simulate_cases`); so a configuration that passed its checks is never what it is refused
for (`isConfig_of_refused`).
-/

namespace Cadence.Run

open Controller Simulation

variable {σ : Type} [Source σ] {env : Environment}

omit [Source σ] in
/-- Within the clock's range a run can begin. -/
lemma start?_eq {plan : Plan} (source : σ) (listening : Bool)
    (hreport : plan.reportInterval.nanos < Clock.limit)
    (hmax : ∀ d, plan.maxDuration = some d → d.nanos < Clock.limit) :
    ∃ c, start? plan source listening 0 = some c := by
  have hreaches : Reaches plan.toConfig 0 :=
    ⟨by rwa [Nat.zero_add], fun d hd => by rw [Nat.zero_add]; exact hmax d hd⟩
  exact Option.isSome_iff_exists.mp (start?_isSome_iff.mpr hreaches)

/-- A run that has to stop some time has a horizon. -/
lemma horizon_of_bounded {plan : Plan} {r : Remaining}
    (h : r.count?.isSome = true ∨ plan.maxDuration.isSome = true ∨ env.interrupt.isSome = true) :
    ∃ stop, horizon env plan r.count? = some stop := by
  unfold horizon
  cases hm : (env.interrupt.toList ++ (plan.maxDuration.map Duration.nanos).toList
    ++ (r.count?.map fun n => n * max plan.tick.nanos Clock.far).toList).min? with
  | some x => exact ⟨_, rfl⟩
  | none =>
    have hnil := List.min?_eq_none_iff.mp hm
    simp only [List.append_eq_nil_iff, Option.toList_eq_nil_iff, Option.map_eq_none_iff] at hnil
    rw [hnil.1.1, hnil.1.2, hnil.2] at h
    simp at h

omit [Source σ] in
lemma course_calls (p : Progress σ) : p.course.calls = p.state.controller.calls := by
  cases p <;> rfl

/-- A run on the virtual clock that starts at zero goes on from there. -/
lemma Simulation.Passes.started {c : Controller σ} {n} {s : Simulation σ} (h : Passes env (Simulation.init c) n s) :
    s.controller.started = c.started :=
  h.invariant (P := fun d => d.started = c.started) rfl fun _ _ _ _ hs hr => hr.frame.started.trans hs

/-- A run that comes out was refused, could not begin, or went on up to its last small step. -/
lemma simulate_cases {config : Config} {source : σ} {supply : Option Nat} {listening : Bool} {course : Course}
    (h : simulate config source supply listening env = course) (hends : course.ending ≠ .endless) :
    (∃ f, config.plan = .error f ∧ course = .unstarted (.refused f)) ∨
    ∃ plan, config.plan = .ok plan ∧
      (start? plan source listening 0 = none ∧ course = .unstarted .clockOverflow ∨
        ∃ c n s, start? plan source listening 0 = some c ∧ Passes env (Simulation.init c) n s ∧
          course = (s.advance env).course ∧ course.calls = s.controller.calls) := by
  subst h
  unfold simulate at hends ⊢
  cases hplan : config.plan with
  | error f => exact .inl ⟨f, rfl, rfl⟩
  | ok plan =>
    rw [hplan] at hends
    dsimp only at hends ⊢
    refine .inr ⟨plan, rfl, ?_⟩
    cases hstart : start? plan source listening 0 with
    | none => exact .inl ⟨rfl, rfl⟩
    | some c =>
      rw [hstart] at hends
      dsimp only at hends ⊢
      cases hstop : horizon env plan supply with
      | none =>
        rw [hstop] at hends
        exact absurd rfl hends
      | some stop =>
        rw [hstop] at hends
        dsimp only at hends ⊢
        -- the state before the last small step, and what that step comes to
        obtain ⟨n, s, _, hpasses, hst, hcase⟩ := run_inv env (Simulation.init c) (budget plan stop)
        obtain ⟨_, hrun⟩ | ⟨hrun, _⟩ := hcase
        · -- a run that uses up its steps has not come out
          rw [hrun] at hends
          exact absurd rfl hends
        · exact .inr ⟨c, n, s, rfl, hpasses, by rw [hrun], by rw [course_calls, hst]⟩

/-- A run whose configuration passed its checks is not refused for its configuration. -/
lemma isConfig_of_refused {config : Config} {source : σ} {supply : Option Nat} {listening : Bool} {course : Course} {f}
    (hvalid : config.Valid) (h : simulate config source supply listening env = course)
    (hended : course.ending = .refused f) : f.isConfig = false := by
  obtain ⟨g, hplan, _⟩ | ⟨plan, _, hbegun⟩ := simulate_cases h (by rw [hended]; exact nofun)
  · cases hplan.symm.trans (Config.plan_eq_ok_iff (p := ⟨config, hvalid⟩).mpr rfl)
  obtain ⟨_, rfl⟩ | ⟨c, n, s, _, _, rfl, _⟩ := hbegun
  · cases hended
  cases ha : s.advance env with
  | faulted t g =>
    rw [ha] at hended
    obtain rfl : g = f := by injection hended
    obtain ⟨_, e, _, hs⟩ := advance_faulted ha
    obtain ⟨_, _, _, _, _, rfl⟩ | ⟨_, _, rest, hdraw⟩ := Controller.step_fault hs
    · rfl
    · rw [Batch.draw_fault hdraw]
      rfl
  | _ =>
    rw [ha] at hended
    cases hended

/-- A run dispatches no more operations than its source has items. -/
lemma simulate_calls_le {config : Config} {source : σ} {supply : Option Nat} {listening : Bool} {n : Nat}
    (honest : Source.Honest source) (hfinite : Source.remaining source = .finite n) :
    (simulate config source supply listening env).calls.size ≤ n := by
  unfold simulate
  split
  · exact Nat.zero_le n
  · next plan _ =>
    split
    · exact Nat.zero_le n
    · next c hstart =>
      split
      · exact Nat.zero_le n
      · next stop _ =>
        obtain ⟨reporter, deadline, hreporter, _, rfl⟩ := start?_inv hstart
        obtain ⟨_, s, _, hpasses, hst, _⟩ :=
          run_inv env (Simulation.init (fresh plan source 0 reporter deadline)) (budget plan stop)
        obtain ⟨k, hsound⟩ := hpasses.sound honest hreporter
        rw [course_calls, hst, hsound.paced.size_eq, hfinite]
        exact Nat.min_le_left n _

/-- The course of a run that has to stop some time is the trace of a state that has ended. -/
theorem simulate_ends {config : Config} {source : σ} {listening : Bool}
    (hvalid : config.Valid) (honest : Source.Honest source)
    (hbounded : (Source.remaining source).count?.isSome = true ∨ config.maxDuration.isSome = true ∨
      env.interrupt.isSome = true)
    (hreport : config.reportInterval.nanos < Clock.limit)
    (hmax : ∀ d, config.maxDuration = some d → d.nanos < Clock.limit)
    (hfew : (simulate config source (Source.remaining source).count? listening env).calls.size ≤ Count.top) :
    ∃ deadline n k s, deadline? ⟨config, hvalid⟩ 0 = some deadline ∧
      Sound env ⟨config, hvalid⟩ deadline source n k s ∧ System.Ledger s.system ∧
      s.controller.isTerminated = true ∧ s.controller.started = 0 ∧
      simulate config source (Source.remaining source).count? listening env
        = .of s.controller (.summed (s.controller.summary s.now)) #[s.controller.closingNote] := by
  let plan : Plan := ⟨config, hvalid⟩
  have hplan : config.plan = .ok plan := Config.plan_eq_ok_iff.mpr rfl
  obtain ⟨c, hc⟩ : ∃ c, start? plan source listening 0 = some c := start?_eq source listening hreport hmax
  obtain ⟨stop, hstop⟩ : ∃ stop, horizon env plan (Source.remaining source).count? = some stop :=
    horizon_of_bounded hbounded
  obtain ⟨reporter, deadline, hr, hd, rfl⟩ := start?_inv hc
  obtain ⟨k, s, _, hp, hst, hcase⟩ :=
    run_inv env (Simulation.init (fresh plan source 0 reporter deadline)) (budget plan stop)
  have hcourse : simulate config source (Source.remaining source).count? listening env
      = ((Simulation.init (fresh plan source 0 reporter deadline)).run env (budget plan stop)).course := by
    unfold simulate
    rw [hplan]
    dsimp only
    rw [hc]
    dsimp only
    rw [hstop]
  have hcalls : (simulate config source (Source.remaining source).count? listening env).calls
      = s.controller.calls := by
    rw [hcourse, course_calls, hst]
  have hl := hp.ledger (hcalls ▸ hfew)
  obtain ⟨j, hj⟩ := hp.sound honest hr
  refine ⟨deadline, k, j, s, hd, hj, hl, ?_⟩
  obtain ⟨rfl, _⟩ | ⟨hrun, hlast⟩ := hcase
  · exact absurd (hj.lt_budget hl hd hstop) (Nat.lt_irrefl _)
  · obtain ⟨t, ht⟩ | ⟨hend, ht⟩ := hj.advances honest hl
    · exact absurd ht (hlast t)
    · refine ⟨ht, hp.started, ?_⟩
      rw [hcourse, hrun, hend]
      rfl

end Cadence.Run
