import Cadence.Duration
import Cadence.Fault

/-!
# Configuration of a run

How fast to dispatch, how often to report, how long to wait for an operation, and how long to go on. A `Plan` is
a configuration that passed every check; runs take plans, so they never see a zero interval.

* `Config.plan` checks in a fixed order and tells the first fault.
* `Config.plan_eq_ok_iff`: a plan arises exactly if no check fails, and is the configuration itself.
* `Config.plan_eq_error_iff`: a configuration is refused with the fault of the first check that fails.
-/

namespace Cadence

/-- Pacing and reporting of one run. -/
structure Config where
  rate : Nat
  tick : Duration
  reportInterval : Duration
  timeout : Duration
  maxDuration : Option Duration
deriving DecidableEq

/-- One operation a second, a report every second, ten seconds for an operation, no end. -/
def Config.default : Config where
  rate := 1
  tick := Duration.ofSeconds 1
  reportInterval := Duration.ofSeconds 1
  timeout := Duration.ofSeconds 10
  maxDuration := none

instance : Inhabited Config := ⟨Config.default⟩

/-- The conditions that a configuration has to meet. -/
structure Config.Valid (c : Config) : Prop where
  rate_pos : 0 < c.rate
  rate_le : c.rate ≤ Fault.maxRate
  tick_pos : 0 < c.tick.nanos
  report_pos : 0 < c.reportInterval.nanos
  timeout_pos : 0 < c.timeout.nanos
  max_pos : ∀ d, c.maxDuration = some d → 0 < d.nanos

/-- A configuration that meets the conditions. -/
structure Plan extends Config where
  valid : toConfig.Valid

theorem Config.default_valid : Config.default.Valid := by
  constructor <;> decide

/-- The plan of the default configuration. -/
def Plan.default : Plan := ⟨Config.default, Config.default_valid⟩

namespace Config

/-- Whether the largest duration is given and zero. -/
def stopsAtOnce (c : Config) : Bool :=
  match c.maxDuration with
  | some d => d.isZero
  | none => false

theorem stopsAtOnce_eq_false {c : Config} (h : c.stopsAtOnce = false) :
    ∀ d, c.maxDuration = some d → 0 < d.nanos := by
  intro d hd
  simp only [stopsAtOnce, hd, Duration.isZero] at h
  exact Nat.pos_of_ne_zero (by simpa using h)

/-- Checks a configuration and gives the plan of a run, or the first fault. -/
def plan (c : Config) : Except Fault Plan :=
  if hr : c.rate = 0 ∨ Fault.maxRate < c.rate then .error .invalidRate
  else if ht : c.tick.nanos = 0 then .error .invalidTick
  else if hp : c.reportInterval.nanos = 0 then .error .invalidReportInterval
  else if ho : c.timeout.nanos = 0 then .error .invalidTimeout
  else if hd : c.stopsAtOnce = true then .error .invalidDuration
  else .ok ⟨c, ⟨by omega, by omega, by omega, by omega, by omega,
    stopsAtOnce_eq_false (by simpa using hd)⟩⟩

/-- The fault of a configuration, if there is one. -/
def fault? (c : Config) : Option Fault :=
  match c.plan with
  | .ok _ => none
  | .error f => some f

/-- What is checked, in order: when a check fails, and the fault that it then tells. -/
def checks (c : Config) : List (Bool × Fault) :=
  [(c.rate == 0 || Fault.maxRate < c.rate, .invalidRate), (c.tick.isZero, .invalidTick),
    (c.reportInterval.isZero, .invalidReportInterval), (c.timeout.isZero, .invalidTimeout),
    (c.stopsAtOnce, .invalidDuration)]

/-- The fault of the first check that fails. -/
def firstFault? (c : Config) : Option Fault := (c.checks.find? Prod.fst).map Prod.snd

/-- The nominal rate, in operations per second. -/
def targetRate (c : Config) : Float := Count.toFloat c.rate / c.tick.toSeconds

theorem plan_eq_ok_iff {c : Config} {p : Plan} : c.plan = .ok p ↔ p.toConfig = c := by
  constructor
  · intro h
    unfold plan at h
    split at h; · cases h
    split at h; · cases h
    split at h; · cases h
    split at h; · cases h
    split at h; · cases h
    cases h; rfl
  · intro h
    obtain ⟨q, hv⟩ := p
    subst h
    have hs : q.stopsAtOnce = false := by
      unfold stopsAtOnce
      split
      · next d hd =>
        have := hv.max_pos d hd
        simp only [Duration.isZero, beq_eq_false_iff_ne]
        omega
      · rfl
    have hr : ¬ (q.rate = 0 ∨ Fault.maxRate < q.rate) := by
      have := hv.rate_pos
      have := hv.rate_le
      omega
    unfold plan
    rw [dif_neg hr, dif_neg (Nat.ne_of_gt hv.tick_pos), dif_neg (Nat.ne_of_gt hv.report_pos),
      dif_neg (Nat.ne_of_gt hv.timeout_pos), dif_neg (by simp [hs])]

theorem plan_eq_error_iff {c : Config} {f : Fault} : c.plan = .error f ↔ c.firstFault? = some f := by
  unfold plan firstFault? checks
  by_cases hr : c.rate = 0 ∨ Fault.maxRate < c.rate
  · simp [hr]
  have hr0 : (c.rate == 0 || decide (Fault.maxRate < c.rate)) = false := by simpa using hr
  by_cases ht : c.tick.nanos = 0
  · simp [hr, hr0, ht, Duration.isZero]
  by_cases hp : c.reportInterval.nanos = 0
  · simp [hr, hr0, ht, hp, Duration.isZero]
  by_cases ho : c.timeout.nanos = 0
  · simp [hr, hr0, ht, hp, ho, Duration.isZero]
  by_cases hd : c.stopsAtOnce = true
  · simp [hr, hr0, ht, hp, ho, hd, Duration.isZero]
  · simp [hr, hr0, ht, hp, ho, hd, Duration.isZero]

theorem firstFault?_of_plan {c : Config} {p : Plan} (h : c.plan = .ok p) : c.firstFault? = none := by
  apply Option.eq_none_iff_forall_ne_some.mpr
  intro f hf
  rw [← plan_eq_error_iff, h] at hf
  cases hf

end Config
end Cadence
