import Cadence.Pacing
import Cadence.Proofs.Beats

/-!
# Late waits

However late one waits for a timer, every wait takes up the timer as the one before it has left it (`Waits`). A bursting
timer keeps the deadlines it had, so lateness leaves no trace in them (`Waits.ended_of_burst`). No timer moves a deadline to
an earlier instant (`Waits.le_ended`), and a delaying one starts its period anew as soon as it is more than its tolerance
late, so two waits for it, one after the other, do not end closer to each other than a period less that
(`Waits.apart_of_delay`).

* `ticks_catch_up_and_reports_keep_apart`: both timers of a run, on one clock, in every history.
-/

namespace Cadence

open Clock

namespace Interval

variable {i : Interval}

lemma origin_of_burst (h : i.missed = .burst) (now : ℕ) : i.origin now = i.deadline := by
  simp [origin, h]

lemma deadline_le_origin {now : ℕ} (h : i.deadline ≤ now) : i.deadline ≤ i.origin now := by
  unfold origin
  split
  · exact Nat.le_refl _
  · split
    · exact h
    · exact Nat.le_refl _

/-- A delaying timer counts on from where it fires, or from less than its tolerance before. -/
lemma le_origin_of_delay (h : i.missed = .delay) (now : ℕ) : now ≤ i.origin now + tolerance := by
  simp only [origin, h]
  split <;> omega

end Interval

namespace Wait

variable {w : Wait}

lemma ended_eq (w : Wait) : w.ended = max w.begun (ceilMs w.timer.deadline) := rfl

lemma deadline_le_ended (w : Wait) : w.timer.deadline ≤ w.ended :=
  Nat.le_trans (le_ceilMs _) (Nat.le_max_right _ _)

/-- A timer whose next deadline the clock can represent does not break down. -/
lemma InRange.not_breaks (h : w.InRange) : w.breaks = false := by
  rw [breaks, Interval.breaks, Bool.and_eq_false_iff]
  exact .inr (decide_eq_false (Nat.not_le.mpr h))

lemma InRange.deadline_left (h : w.InRange) : w.left.deadline = w.timer.origin w.ended + w.timer.period.nanos := by
  show w.timer.following w.ended = _
  rw [Interval.following_eq, after_eq h]

end Wait

/-- These are waits for a timer, one after the other. -/
inductive Waits : Interval → List Wait → Prop where
  | nil {i} : Waits i []
  | cons {w waits} : Waits w.left waits → Waits w.timer (w :: waits)

namespace Waits

variable {i : Interval} {waits : List Wait} {w w' : Wait} {k : ℕ}

/-- A wait for a bursting timer ends when it would have if no earlier one had been late. -/
theorem ended_of_burst (h : Waits i waits) (hburst : i.missed = .burst) (hrange : ∀ w ∈ waits, w.InRange)
    (hw : waits[k]? = some w) : w.ended = max w.begun (ceilMs (i.deadline + k * i.period.nanos)) := by
  induction h generalizing k with
  | nil => cases hw
  | @cons v waits _ ih =>
    obtain ⟨hv, hrest⟩ := List.forall_mem_cons.mp hrange
    cases k with
    | zero =>
      obtain rfl := Option.some_inj.mp hw
      rw [Nat.zero_mul, Nat.add_zero, Wait.ended_eq]
    | succ k =>
      -- the deadline that is left is one period on, whenever this wait has ended
      have hended := ih hburst hrest hw
      rw [hv.deadline_left, Interval.origin_of_burst hburst] at hended
      rw [hended, Nat.succ_mul, Nat.add_comm (k * _), ← Nat.add_assoc]
      rfl

/-- No wait for a timer ends early. -/
theorem le_ended (h : Waits i waits) (hrange : ∀ w ∈ waits, w.InRange) (hw : waits[k]? = some w) :
    i.deadline + k * i.period.nanos ≤ w.ended := by
  induction h generalizing k with
  | nil => cases hw
  | @cons v waits _ ih =>
    obtain ⟨hv, hrest⟩ := List.forall_mem_cons.mp hrange
    cases k with
    | zero =>
      obtain rfl := Option.some_inj.mp hw
      rw [Nat.zero_mul, Nat.add_zero]
      exact v.deadline_le_ended
    | succ k =>
      have hended := ih hrest hw
      have horigin := Interval.deadline_le_origin v.deadline_le_ended
      have hperiod : v.left.period = v.timer.period := rfl
      rw [hv.deadline_left, hperiod] at hended
      rw [Nat.succ_mul]
      omega

/-- Two waits for a delaying timer, one after the other, do not end closer to each other than its period less its
tolerance. -/
theorem apart_of_delay (h : Waits i waits) (hdelay : i.missed = .delay) (hrange : ∀ w ∈ waits, w.InRange)
    (hw : waits[k]? = some w) (hw' : waits[k + 1]? = some w') :
    w.ended + i.period.nanos ≤ w'.ended + Interval.tolerance := by
  induction h generalizing k with
  | nil => cases hw
  | @cons v waits hnext ih =>
    obtain ⟨hv, hrest⟩ := List.forall_mem_cons.mp hrange
    cases k with
    | zero =>
      obtain rfl := Option.some_inj.mp hw
      -- the next wait cannot end before the deadline that this one left
      have hfirst := hnext.le_ended hrest hw'
      have horigin := Interval.le_origin_of_delay hdelay v.ended
      rw [hv.deadline_left, Nat.zero_mul, Nat.add_zero] at hfirst
      omega
    | succ k => exact ih hdelay hrest hw hw'

end Waits

namespace Pacing

variable {p : Pacing}

lemma timer_passed (p : Pacing) (time : Duration) (t : Timer) : (p.follow (.passed time)).timer t = p.timer t := by
  cases t <;> rfl

lemma timer_waited (p : Pacing) (t : Timer) : (p.follow (.waited t)).timer t = (p.wait t).left := by
  cases t <;> rfl

lemma timer_waited_of_ne (p : Pacing) {t u : Timer} (h : u ≠ t) : (p.follow (.waited u)).timer t = p.timer t := by
  cases t with
  | ticks =>
    cases u with
    | ticks => exact absurd rfl h
    | reports => rfl
  | reports =>
    cases u with
    | ticks => rfl
    | reports => exact absurd rfl h

/-- Whatever else happens, the waits for a timer follow one after the other. -/
theorem waits_follow (p : Pacing) (t : Timer) (history : List Event) : Waits (p.timer t) (p.waits t history) := by
  induction history generalizing p with
  | nil => exact .nil
  | cons e history ih =>
    cases e with
    | passed time =>
      have h := ih (p.follow (.passed time))
      rwa [timer_passed] at h
    | waited u =>
      have h := ih (p.follow (.waited u))
      rw [waits]
      split
      · next heq =>
        subst heq
        rw [timer_waited] at h
        exact .cons h
      · next hne =>
        rwa [timer_waited_of_ne p hne] at h

/-- Every wait of a history comes to its end. -/
lemma length_waits (p : Pacing) (t : Timer) (history : List Event) :
    (p.waits t history).length = history.count (.waited t) := by
  induction history generalizing p with
  | nil => rfl
  | cons e history ih =>
    cases e with
    | passed time =>
      rw [waits, ih, List.count_cons_of_ne (show Event.passed time ≠ .waited t from nofun)]
    | waited u =>
      rw [waits]
      split
      · next heq => rw [heq, List.length_cons, ih, List.count_cons_self]
      · next hne =>
        rw [ih, List.count_cons_of_ne]
        exact fun heq => hne (Event.waited.inj heq)

lemma start?_inv {tick every : Duration} {start : ℕ} {listening : Bool} (h : start? tick every start listening = some p) :
    p.timer .ticks = ⟨start, tick, .burst⟩ ∧ p.timer .reports = ⟨start + every.nanos, every, .delay⟩ := by
  obtain ⟨reporter, hreporter, rfl⟩ := Option.map_eq_some_iff.mp h
  obtain ⟨first, hfirst, rfl⟩ := Option.map_eq_some_iff.mp hreporter
  obtain rfl := after?_eq_some hfirst
  exact ⟨rfl, rfl⟩

/-- Whatever order time passes and one waits in, and however late, every wait comes to its end, and as long as the clock can
represent the deadlines: no timer breaks down; the `k`-th wait for a tick, from zero, ends at the first whole millisecond from `k` intervals after
the start on, or at once if that has passed; the `k`-th wait for a report, from one, does not end before `k` intervals after
the start; and between two of these there is an interval less five milliseconds, so that reports never come in a burst. -/
theorem ticks_catch_up_and_reports_keep_apart {tick every : Duration} {start : ℕ} {listening : Bool}
    (hstart : start? tick every start listening = some p) (history : List Event)
    (hrange : ∀ t, ∀ w ∈ p.waits t history, w.InRange) :
    (∀ t, (p.waits t history).length = history.count (.waited t)) ∧
    (∀ t, ∀ w ∈ p.waits t history, w.breaks = false) ∧
    (∀ k w, (p.waits .ticks history)[k]? = some w → w.ended = max w.begun (ceilMs (start + k * tick.nanos))) ∧
    (∀ k w, (p.waits .reports history)[k]? = some w → start + (k + 1) * every.nanos ≤ w.ended) ∧
    (∀ k w w', (p.waits .reports history)[k]? = some w → (p.waits .reports history)[k + 1]? = some w' →
      w.ended + every.nanos ≤ w'.ended + 5000000 ∧ (5000000 < every.nanos → w.ended < w'.ended)) := by
  obtain ⟨hticks, hreports⟩ := start?_inv hstart
  have htick := p.waits_follow .ticks history
  have hreport := p.waits_follow .reports history
  rw [hticks] at htick
  rw [hreports] at hreport
  refine ⟨fun t => p.length_waits t history, fun t w hw => (hrange t w hw).not_breaks, fun k w hw => htick.ended_of_burst rfl (hrange _) hw, fun k w hw => ?_,
    fun k w w' hw hw' => ?_⟩
  · have hle := hreport.le_ended (hrange _) hw
    rw [Nat.succ_mul]
    dsimp only at hle
    omega
  · have hapart : w.ended + every.nanos ≤ w'.ended + 5000000 := hreport.apart_of_delay rfl (hrange _) hw hw'
    exact ⟨hapart, fun hlong => by omega⟩

/-- Waits that begin more than a second late: four ticks are caught up at once and the fifth is in time, while the second
report comes a whole interval after the first one, which was late. -/
theorem late_ticks_catch_up :
    let p : Pacing := ⟨0, .ofTicks (.clamp 400300000) 0, ⟨⟨500000000, .ofMillis 500, .delay⟩, 0, true⟩⟩
    let history : List Event := [.passed (.ofMillis 1201), .waited .ticks, .waited .ticks, .waited .ticks,
      .waited .ticks, .waited .reports, .waited .ticks, .waited .reports]
    start? (.clamp 400300000) (.ofMillis 500) 0 true = some p ∧
    (p.waits .ticks history).map Wait.ended = [1201000000, 1201000000, 1201000000, 1201000000, 1602000000] ∧
    (p.waits .reports history).map Wait.ended = [1201000000, 1701000000] ∧
    ∀ w w', (p.waits .reports history)[0]? = some w → (p.waits .reports history)[1]? = some w' → w.ended < w'.ended := by
  intro p history
  have hstart : start? (.clamp 400300000) (.ofMillis 500) 0 true = some p := by decide
  have hrange : ∀ t, ∀ w ∈ p.waits t history, w.InRange := by
    intro t
    cases t <;> decide
  obtain ⟨_, _, _, _, hreports⟩ := ticks_catch_up_and_reports_keep_apart hstart history hrange
  exact ⟨hstart, by decide, by decide, fun w w' hw hw' => (hreports 0 w w' hw hw').2 (by decide)⟩

end Pacing
end Cadence
