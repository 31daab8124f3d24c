import Cadence.Proofs.Benchmark.Performance
import Cadence.Proofs.CommandLine.Accepted

/-!
# Accepted commands are never rejected

What the command line accepts passes every check that comes after it: the pacing makes a plan, an upload has payloads,
and a command that begins is run with the pacing that was read and never refused for it
(`accepted_command_is_never_rejected`).
-/

namespace Cadence.Benchmark

open CommandLine (Command Param Setting options pacing?)

/-- A command that the command line accepted has a plan, whose pacing is what the options read as, or the defaults; an
upload has payloads of the size and the count that were read. Only its list or its address can keep it from being
prepared, and then it is run with that pacing, and not refused for its configuration. -/
theorem accepted_command_is_never_rejected {api : String} {words : List String} {c : Command}
    (h : CommandLine.command api words = .ok c) :
    (∃ plan, c.common.config.plan = .ok plan ∧ plan.toConfig = c.common.config) ∧
    (∀ p ∈ Param.pacing, pacing? c.common.config p
      = (((options c.operation words.tail).lookup p).or p.defaultText?).bind
          fun text => (Setting.read p text).toOption) ∧
    (∀ common size count path, c = .upload common size count path →
      Payloads.create size (uploadCount count) = .ok ⟨size, uploadCount count, 0⟩) ∧
    (∀ idna tree chance f, prepare idna c tree chance = .error f → Unready idna c tree) ∧
    ∀ tree s p, prepare s.idna c tree s.chance = .ok p → ∃ course,
      Run.simulate c.common.config p.source p.source.supply true (s.environment p.executor c.common.config.timeout)
        = course ∧
      (perform c tree s).course = some course ∧ ∀ f, course.ending = .refused f → f.isConfig = false := by
  have hfit := CommandLine.command_fit h
  refine ⟨⟨⟨c.common.config, hfit.config⟩, Config.plan_eq_ok_iff.mpr rfl, rfl⟩, ?_, ?_, ?_, ?_⟩
  · intro p hp
    exact CommandLine.command_pacing h hp
  · intro common size count path hc
    have hsize : size ≠ 0 := Nat.ne_of_gt (hfit.payloads _ _ _ _ hc).1
    exact if_neg hsize
  · intro idna tree chance f hf
    have hprepares := prepares idna tree chance fun _ _ _ _ hc => (hfit.payloads _ _ _ _ hc).1
    rw [hf] at hprepares
    cases hprepares with
    | unready hunready => exact hunready
  · intro tree s p hp
    refine ⟨p.run c s, rfl, (Prepared.comes hp hfit.config).course_eq, fun f hf => ?_⟩
    exact Run.isConfig_of_refused hfit.config rfl hf

/-- Five uploads every quarter of a second are accepted, and planned so. -/
theorem quick_uploads_are_planned : ∃ c plan,
    CommandLine.command Command.localApi ["upload", "--rate=5", "--tick", "250ms"] = .ok c ∧
    c.common.config.plan = .ok plan ∧ plan.rate = 5 ∧ plan.tick = Duration.ofMillis 250 ∧
    plan.timeout = Duration.ofSeconds 10 := by
  obtain ⟨c, hc, hop⟩ : ∃ c, CommandLine.command Command.localApi ["upload", "--rate=5", "--tick", "250ms"] = .ok c ∧
      c.operation = .upload := by
    refine ⟨.upload { CommandLine.Common.default Command.localApi with
      rate := 5, tick := Duration.ofMillis 250 } 262144 0 "cids.txt", ?_, rfl⟩
    decide +kernel
  obtain ⟨⟨plan, hplan, hconfig⟩, hpacing, _⟩ := accepted_command_is_never_rejected hc
  rw [hop, ← hconfig] at hpacing
  refine ⟨c, plan, hc, hplan, ?_, ?_, ?_⟩
  · have hrate : some (Setting.rate plan.rate) = some (.rate 5) :=
      (hpacing .rate (by decide)).trans (by decide +kernel)
    exact Setting.rate.inj (Option.some.inj hrate)
  · have htick : some (Setting.tick plan.tick) = some (.tick (Duration.ofMillis 250)) :=
      (hpacing .tick (by decide)).trans (by decide +kernel)
    exact Setting.tick.inj (Option.some.inj htick)
  · have htimeout : some (Setting.timeout plan.timeout) = some (.timeout (Duration.ofSeconds 10)) :=
      (hpacing .timeout (by decide)).trans (by decide +kernel)
    exact Setting.timeout.inj (Option.some.inj htimeout)

end Cadence.Benchmark
