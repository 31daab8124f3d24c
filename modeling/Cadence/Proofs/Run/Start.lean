import Cadence.Proofs.Duration.Notation
import Cadence.Proofs.Run.Inversion
import Cadence.Run.Process

/-!
# Runs that can begin

A configuration that passed its checks is started exactly if the clock reaches its first report and its deadline
(`start?_isSome_iff`). The checks bound both from below only, and the notation of durations bounds them by 64 bits of seconds:
what is written in seconds, minutes or hours leads out of the clock beyond a certain number (`TimeUnit.reach`).
-/

namespace Cadence

namespace Clock

lemma after?_isSome_iff {t : Nat} {d : Duration} : (after? t d).isSome = true ↔ t + d.nanos < limit := by
  unfold after?
  split
  · next h => simpa using h
  · next h => simpa using h

end Clock

namespace Duration

namespace TimeUnit

/-- The largest number of a unit that the clock reaches from an instant. -/
def reach (u : TimeUnit) (started : Nat) : Nat := (Clock.limit - 1 - started) / u.nanos

/-- A unit of which every number of 64 bits is short: a thousandth of a second at most. -/
def IsShort (u : TimeUnit) : Prop := u = millisecond ∨ u = microsecond

lemma IsShort.nanos_le {u : TimeUnit} (h : u.IsShort) : u.nanos ≤ 1000000 := by
  rcases h with rfl | rfl <;> decide

end TimeUnit

variable {text : String} {value started : Nat} {u : TimeUnit} {d : Duration}

/-- What was read is as long as it is written. -/
lemma nanos_of_written (hw : Written text value u) (h : parse text = .ok d) : d.nanos = value * u.nanos := by
  rw [parse_of_written hw] at h
  split at h
  · split at h
    · cases h
    · cases h
      rfl
  · cases h

/-- The clock reaches what was read exactly if the number of units is not beyond the last one that it reaches. -/
lemma reached_iff (hw : Written text value u) (h : parse text = .ok d) :
    started + d.nanos < Clock.limit ↔ value ≤ u.reach started := by
  have hpos := parse_pos h
  rw [TimeUnit.reach, Nat.le_div_iff_mul_le u.nanos_pos, ← nanos_of_written hw h]
  omega

/-- The clock reaches all that is written in short units, from every instant that is early. -/
lemma reached_of_short (hearly : started + (Count.top + 1) * 1000000 ≤ Clock.limit) (hw : Written text value u)
    (h : parse text = .ok d) (hu : u.IsShort) : started + d.nanos < Clock.limit := by
  have hvalue : value * u.nanos ≤ Count.top * 1000000 := Nat.mul_le_mul hw.1 hu.nanos_le
  rw [nanos_of_written hw h]
  omega

end Duration

namespace Run

/-- The clock reaches the first report and the deadline of a run that begins at `started`. -/
structure Reaches (config : Config) (started : Nat) : Prop where
  report : started + config.reportInterval.nanos < Clock.limit
  deadline : ∀ d, config.maxDuration = some d → started + d.nanos < Clock.limit

variable {σ : Type} {plan : Plan} {started : Nat}

lemma create?_isSome_iff {every : Duration} {listening : Bool} :
    (Reporter.create? every started listening).isSome = true ↔ started + every.nanos < Clock.limit := by
  rw [Reporter.create?, Option.isSome_map, Clock.after?_isSome_iff]

lemma deadline?_isSome_iff : (Controller.deadline? plan started).isSome = true ↔
    ∀ d, plan.maxDuration = some d → started + d.nanos < Clock.limit := by
  unfold Controller.deadline?
  split
  · next h => simp [h]
  · next d h => simp [h, Clock.after?_isSome_iff]

/-- A run begins exactly if the clock reaches its first report and its deadline. -/
lemma start?_isSome_iff {source : σ} {listening : Bool} :
    (Controller.start? plan source listening started).isSome = true ↔ Reaches plan.toConfig started := by
  have hstart : (Controller.start? plan source listening started).isSome = true ↔
      (Reporter.create? plan.reportInterval started listening).isSome = true ∧
        (Controller.deadline? plan started).isSome = true := by
    unfold Controller.start?
    cases Reporter.create? plan.reportInterval started listening <;> cases Controller.deadline? plan started <;> simp
  rw [hstart, create?_isSome_iff, deadline?_isSome_iff]
  exact ⟨fun ⟨hreport, hdeadline⟩ => ⟨hreport, hdeadline⟩, fun ⟨hreport, hdeadline⟩ => ⟨hreport, hdeadline⟩⟩

/-- A run of a configuration that passed its checks is over before it begins exactly if the clock does not reach that far. -/
lemma Runs.overflow_inv {config : Config} (hvalid : config.Valid) [Source σ] {source : σ} {listening : Bool}
    {moves : List (Nat × Move)} {course : Course} (hrun : Runs config source listening started moves course) :
    (course.ending = .clockOverflow ↔ ¬ Reaches config started) ∧
      (¬ Reaches config started → moves = [] ∧ course = .unstarted .clockOverflow) := by
  have hplan : config.plan = .ok ⟨config, hvalid⟩ := Config.plan_eq_ok_iff.mpr rfl
  have hstart : (Controller.start? ⟨config, hvalid⟩ source listening started).isSome = true ↔ Reaches config started :=
    start?_isSome_iff
  cases hrun with
  | refused hrefused =>
    rw [hplan] at hrefused
    cases hrefused
  | overflow hplan' hoverflow =>
    rw [hplan] at hplan'
    cases hplan'
    have hout : ¬ Reaches config started := by
      rw [← hstart, hoverflow]
      exact nofun
    exact ⟨⟨fun _ => hout, fun _ => rfl⟩, fun _ => ⟨rfl, rfl⟩⟩
  | failed hplan' hbegins | ended hplan' hbegins =>
    rw [hplan] at hplan'
    cases hplan'
    have hin : Reaches config started := by
      rw [← hstart, hbegins]
      rfl
    exact ⟨⟨nofun, fun h => absurd hin h⟩, fun h => absurd hin h⟩

/-- A configuration that passed its checks is started exactly if the clock reaches its first report and its deadline; where
it does not, its run is over before anything happens. A report interval or a deadline that was read from a text, and so passes
the checks, is within reach exactly if the number of its units is. From an early start all numbers of short units are. -/
theorem run_begins_within_clock {config : Config} (hvalid : config.Valid) [Source σ] (source : σ) (listening : Bool)
    (started : Nat) :
    ((∃ c, Controller.start? ⟨config, hvalid⟩ source listening started = some c) ↔ Reaches config started) ∧
    (¬ Reaches config started → Runs config source listening started [] (.unstarted .clockOverflow)) ∧
    (∀ moves course, Runs config source listening started moves course →
      (course.ending = .clockOverflow ↔ ¬ Reaches config started) ∧
      (¬ Reaches config started → moves = [] ∧ course = .unstarted .clockOverflow)) ∧
    (∀ text d, Duration.parse text = .ok d → 0 < d.nanos ∧ ∃ value u, Duration.Written text value u ∧
      (started + d.nanos < Clock.limit ↔ value ≤ u.reach started) ∧
      (started + (Count.top + 1) * 1000000 ≤ Clock.limit → u.IsShort → started + d.nanos < Clock.limit)) := by
  have hplan : config.plan = .ok ⟨config, hvalid⟩ := Config.plan_eq_ok_iff.mpr rfl
  have hstart : (Controller.start? ⟨config, hvalid⟩ source listening started).isSome = true ↔ Reaches config started :=
    start?_isSome_iff
  refine ⟨?_, fun h => .overflow hplan ?_, fun moves course hrun => ?_, fun text d h => ?_⟩
  · rw [← hstart, Option.isSome_iff_exists]
  · rw [← Option.not_isSome_iff_eq_none, hstart]
    exact h
  · exact Runs.overflow_inv hvalid hrun
  · have hreads := Duration.reads_parse text
    rw [h] at hreads
    cases hreads with
    | @ok value u _ hw _ _ _ =>
      exact ⟨Duration.parse_pos h, value, u, hw, Duration.reached_iff hw h, fun hearly => Duration.reached_of_short hearly hw h⟩

/-- A report interval of 9223372036854775808 seconds is read and passes the checks, and its run is over before it begins. -/
theorem report_beyond_clock_never_begins :
    let config : Config := { Config.default with reportInterval := ⟨9223372036854775808000000000, by decide⟩ }
    Duration.parse "9223372036854775808s" = .ok config.reportInterval ∧ config.Valid ∧ ¬ Reaches config 0 ∧
      Runs config (KeyList.ofArray #["bafya"]) true 0 [] (.unstarted .clockOverflow) ∧
      ∃ c, Controller.start? Plan.default (KeyList.ofArray #["bafya"]) true 0 = some c := by
  intro config
  have hvalid : config.Valid := by constructor <;> decide
  have hout : ¬ Reaches config 0 := fun h => absurd h.report (by decide)
  have hdefault : Reaches Config.default 0 := ⟨by decide, nofun⟩
  obtain ⟨_, hoverflow, _⟩ := run_begins_within_clock hvalid (KeyList.ofArray #["bafya"]) true 0
  obtain ⟨hbegins, _⟩ := run_begins_within_clock Config.default_valid (KeyList.ofArray #["bafya"]) true 0
  exact ⟨by decide +kernel, hvalid, hout, hoverflow hout, hbegins.mpr hdefault⟩

example : Duration.TimeUnit.second.reach 0 = 9223372036854775807 ∧ Duration.TimeUnit.minute.reach 0 = 153722867280912930 ∧
    Duration.TimeUnit.hour.reach 0 = 2562047788015215 := by decide

end Run
end Cadence
