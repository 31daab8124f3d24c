import Cadence.Proofs.Run.Ledger
import Cadence.Run.Simulation

/-!
# The series of reports

What a run counts never falls, so of two of its reports the later one shows no smaller figure, and the summary shows
none that is smaller than in a report (`Ascending`). `reports_form_series` adds that the reports are numbered without a
gap, that each of them balances, and that the summary closes them, as `Controller.closes` says of a course.
-/

namespace Cadence

/-- Nothing that only grows is larger in `r` than in `q`. -/
structure Snapshot.Precedes (r q : Snapshot) : Prop where
  elapsed : r.elapsed.nanos ≤ q.elapsed.nanos
  sent : r.sent ≤ q.sent
  completed : r.completed ≤ q.completed
  failed : r.failed ≤ q.failed

lemma Snapshot.Precedes.trans {p q r : Snapshot} (h : p.Precedes q) (h' : q.Precedes r) : p.Precedes r where
  elapsed := Nat.le_trans h.elapsed h'.elapsed
  sent := Nat.le_trans h.sent h'.sent
  completed := Nat.le_trans h.completed h'.completed
  failed := Nat.le_trans h.failed h'.failed

/-- No operation that `r` counts is missing in `q`. -/
structure Snapshot.Below (r q : Snapshot) : Prop where
  sent : r.sent ≤ q.sent
  completed : r.completed ≤ q.completed
  failed : r.failed ≤ q.failed

lemma Snapshot.Precedes.below {r q : Snapshot} (h : r.Precedes q) : r.Below q := ⟨h.sent, h.completed, h.failed⟩

lemma Clock.since_mono {t u : Nat} (h : t ≤ u) (start : Nat) : (since t start).nanos ≤ (since u start).nanos := by
  simp only [since, Duration.clamp_eq_min]
  omega

lemma Reporter.create?_hasListener {every : Duration} {start : Nat} {listening : Bool} {reporter : Reporter}
    (h : create? every start listening = some reporter) : reporter.hasListener = listening := by
  obtain ⟨first, _, rfl⟩ := Option.map_eq_some_iff.mp h
  rfl

namespace Run

/-- The summary of a course closes its reports: these are numbered from one on, it tells how many there were, no count of
operations is smaller in a later one, and nothing is in flight any more. -/
structure Course.Closes (course : Course) (summary : Summary) : Prop where
  ticks : course.reports.toList.map Snapshot.tick = List.range' 1 course.reports.size
  tick : summary.snapshot.tick = course.reports.size
  emitted : summary.reportsEmitted = course.reports.size
  ascending : (course.reports.toList ++ [summary.snapshot]).Pairwise Snapshot.Below
  inFlight : summary.snapshot.inFlight = 0
  balance : summary.snapshot.sent = summary.snapshot.completed + summary.snapshot.failed

namespace Controller

variable {σ : Type}

/-- The reports up to `now` come in order, and before a summary at `now`. -/
structure Ascending (now : Nat) (c : Controller σ) : Prop where
  reports : c.reports.toList.Pairwise Snapshot.Precedes
  summary : ∀ r ∈ c.reports, r.Precedes (c.summary now).snapshot

/-- As time goes by, a run that nothing happens in shows the same figures. -/
lemma precedes_of_le (c : Controller σ) {t u : Nat} (h : t ≤ u) :
    (c.summary t).snapshot.Precedes (c.summary u).snapshot :=
  ⟨Clock.since_mono h c.started, Nat.le_refl _, Nat.le_refl _, Nat.le_refl _⟩

lemma Ascending.mono {c : Controller σ} {t u : Nat} (h : Ascending t c) (htu : t ≤ u) : Ascending u c where
  reports := h.reports
  summary r hr := (h.summary r hr).trans (c.precedes_of_le htu)

/-- No reaction takes a result back. -/
lemma Reaction.countP_le [Source σ] {c d : Controller σ} {now e} (h : Reaction c now e d) (p : Completion → Bool) :
    c.completions.toList.countP p ≤ d.completions.toList.countP p := by
  cases h with
  | interrupt hp => exact Nat.le_of_eq (by rw [stop_of_running hp])
  | completion =>
    simp only [absorb, Array.toList_push, List.countP_append]
    exact Nat.le_add_right _ _
  | deadline hp => exact Nat.le_of_eq (by rw [stop_of_running hp])
  | report => exact Nat.le_refl _
  | tick => exact Nat.le_of_eq (by rw [feed_eq])
  | lastTick hp => exact Nat.le_of_eq (by rw [stop_of_running (feed_running hp), feed_eq])

/-- Whatever a run reacts to, nothing that it counts falls. -/
lemma Reaction.precedes [Source σ] {c d : Controller σ} {now e} (h : Reaction c now e d) (hc : Counted c) (t : Nat) :
    (c.summary t).snapshot.Precedes (d.settle.summary t).snapshot := by
  have hd := hc.reaction h
  have hstarted : d.settle.started = c.started := h.frame.started
  refine ⟨?_, ?_, ?_, ?_⟩
  · show (Clock.since t c.started).nanos ≤ (Clock.since t d.settle.started).nanos
    exact Nat.le_of_eq (by rw [hstarted])
  · show c.tally.sent ≤ d.settle.tally.sent
    rw [hc.sent, hd.sent]
    exact Count.cap_mono h.calls_le
  · show c.tally.completed ≤ d.settle.tally.completed
    rw [hc.completed, hd.completed]
    exact Count.cap_mono (h.countP_le _)
  · show c.tally.failed ≤ d.settle.tally.failed
    rw [hc.failed, hd.failed]
    exact Count.cap_mono (h.countP_le _)

/-- A reaction at an instant that is not before the last one keeps the reports in order. -/
lemma Ascending.reaction [Source σ] {c d : Controller σ} {now e} (h : Ascending now c) (hc : Counted c)
    (hr : Reaction c now e d) : Ascending now d.settle := by
  have hlater := hr.precedes hc now
  by_cases he : e = .report
  · subst he
    cases hr with
    | report =>
      -- the report that is taken shows the figures of a summary at its instant
      have hnew : ∀ q : Snapshot, (c.summary now).snapshot.Precedes q →
          (c.tally.snapshot c.started now c.inFlight.active (Count.next c.reporter.emitted)).Precedes q :=
        fun q hq => ⟨hq.elapsed, hq.sent, hq.completed, hq.failed⟩
      constructor
      · refine pairwise_push h.reports fun r hr => ?_
        have hsum := h.summary r hr
        exact ⟨hsum.elapsed, hsum.sent, hsum.completed, hsum.failed⟩
      · intro r hr
        obtain hr | rfl := Array.mem_push.mp hr
        · exact (h.summary r hr).trans hlater
        · exact hnew _ hlater
  · have hreports : d.settle.reports = c.reports := hr.reports_eq he
    constructor
    · rw [hreports]
      exact h.reports
    · intro r hr
      exact (h.summary r (hreports ▸ hr)).trans hlater

/-- As long as they can be counted, reports are numbered from one on without a gap. -/
lemma ticks_of_numbered {c : Controller σ} (h : Numbered c) (hfew : c.reports.size ≤ Count.top) :
    c.reports.toList.map Snapshot.tick = List.range' 1 c.reports.size := by
  apply List.ext_getElem
  · simp
  · intro k hk _
    have hk : k < c.reports.size := by simpa using hk
    rw [List.getElem_map, Array.getElem_toList, List.getElem_range',
      h.tick k _ (Array.getElem?_eq_getElem hk), Count.cap_eq (by omega)]
    omega

/-- The course of a run that has ended, as whoever listened to it has heard it: its summary closes its reports, whenever it
is taken, as long as these can be counted. -/
theorem closes {c : Controller σ} {last : Nat} (hlistening : c.reporter.hasListener = true) (hnumbered : Numbered c)
    (hascending : Ascending last c) (hactive : c.inFlight.active = 0)
    (hbalance : c.tally.sent = c.tally.completed + c.tally.failed) {now : Nat} {notes : Array Note}
    (hreports : (Course.of c (.summed (c.summary now)) notes).reports.size ≤ Count.top) :
    (Course.of c (.summed (c.summary now)) notes).Closes (c.summary now) := by
  have hheard : (Course.of c (.summed (c.summary now)) notes).reports = c.reports := by
    simp [Course.of, hlistening]
  rw [hheard] at hreports
  have hemitted : (c.summary now).reportsEmitted = c.reports.size := hnumbered.emitted.trans (Count.cap_eq hreports)
  refine ⟨?_, ?_, ?_, ?_, hactive, hbalance⟩
  · rw [hheard]
    exact ticks_of_numbered hnumbered hreports
  · rw [hheard]
    exact hemitted
  · rw [hheard]
    exact hemitted
  · rw [hheard, List.pairwise_append]
    refine ⟨hascending.reports.imp Snapshot.Precedes.below, List.pairwise_singleton _ _, fun r hr q hq => ?_⟩
    obtain rfl := List.mem_singleton.mp hq
    have hlast := hascending.summary r (Array.mem_toList_iff.mp hr)
    exact ⟨hlast.sent, hlast.completed, hlast.failed⟩

end Controller

namespace System
open Controller

variable {σ : Type} [Source σ]

/-- With a clock that does not go back, the reports of a run come in order, up to the last of its moves. -/
theorem Leads.ascending {plan : Plan} {source : σ} {started reporter deadline} {s : System σ} {moves}
    (hrun : (System.init (fresh plan source started reporter deadline)).Leads moves s)
    (hclock : moves.Pairwise fun a b => a.1 ≤ b.1) :
    ∃ last, Ascending last s.controller ∧ ∀ now, (∀ a ∈ moves, a.1 ≤ now) → last ≤ now := by
  induction hrun with
  | nil => exact ⟨0, ⟨.nil, nofun⟩, fun now _ => Nat.zero_le now⟩
  | @snoc moves t u now m hrun hs ih =>
    obtain ⟨hbefore, _, hnow⟩ := List.pairwise_append.mp hclock
    obtain ⟨last, hascending, hlast⟩ := ih hbefore
    -- what holds at the last instant is carried on to that of the next move first
    have h : Ascending now t.controller :=
      hascending.mono (hlast now fun a ha => hnow a ha (now, m) (by simp))
    have hc := hrun.counted .fresh
    refine ⟨now, ?_, fun later hlater => hlater (now, m) (by simp)⟩
    cases step_inv hs with
    | same => exact h
    | finish => exact h
    | receive ht _ hf => exact h.reaction hc (.completion ht hf)
    | signal _ hr => exact h.reaction hc hr

/-- The reports of a run with a clock that does not go back, as long as its operations and its reports can be counted:
they are numbered from one on without a gap; neither the time nor the operations sent, completed and failed fall from
one to a later one, or to the summary; and each of them balances. A listener hears all of them, and only a listener
does. The summary of a run that has ended has nothing in flight, and tells how many reports there were. -/
theorem reports_form_series {plan : Plan} {source : σ} {listening : Bool} {started : Nat} {c : Controller σ}
    (hstart : start? plan source listening started = some c)
    {moves : List (Nat × Move)} {s : System σ} (hrun : (System.init c).Leads moves s)
    (hclock : moves.Pairwise fun a b => a.1 ≤ b.1)
    (hfew : s.controller.calls.size ≤ Count.top) (hreports : s.controller.reports.size ≤ Count.top) :
    s.controller.reports.toList.map Snapshot.tick = List.range' 1 s.controller.reports.size ∧
    s.controller.reports.toList.Pairwise Snapshot.Precedes ∧
    (∀ r ∈ s.controller.reports, r.completed + r.failed + r.inFlight = r.sent) ∧
    (∀ ending notes, (Course.of s.controller ending notes).reports
      = if listening then s.controller.reports else #[]) ∧
    (∀ now, (∀ a ∈ moves, a.1 ≤ now) → ∀ r ∈ s.controller.reports,
      r.Precedes (s.controller.summary now).snapshot) ∧
    (s.controller.isTerminated = true → ∀ now,
      (s.controller.summary now).snapshot.inFlight = 0 ∧
      (s.controller.summary now).snapshot.completed + (s.controller.summary now).snapshot.failed
        = (s.controller.summary now).snapshot.sent ∧
      (s.controller.summary now).snapshot.tick = (s.controller.summary now).reportsEmitted ∧
      (s.controller.summary now).reportsEmitted = s.controller.reports.size) := by
  obtain ⟨reporter, deadline, hreporter, _, rfl⟩ := start?_inv hstart
  obtain ⟨last, hascending, hlast⟩ := hrun.ascending hclock
  have hnumbered := hrun.numbered (.fresh hreporter)
  have hledger := hrun.ledger Ledger.init hfew
  have horderly := hrun.orderly Orderly.fresh
  refine ⟨ticks_of_numbered hnumbered hreports, hascending.reports, ?_, ?_, ?_, ?_⟩
  · -- a report shows the state in which it was taken, where the books balanced
    intro r hr
    obtain ⟨before, rest, u, _, hbefore, hrest, hshows⟩ := hrun.shown rfl r hr
    have hu := hbefore.ledger Ledger.init (Nat.le_trans hrest.calls_le hfew)
    rw [hshows.sent, hshows.completed, hshows.failed, hshows.inFlight]
    exact hu.balance.symm
  · intro ending notes
    have hlistening : s.controller.reporter.hasListener = listening :=
      hrun.frame.listening.trans (Reporter.create?_hasListener hreporter)
    cases listening <;> simp [Course.of, hlistening]
  · exact fun now hnow => (hascending.mono (hlast now hnow)).summary
  · intro ht now
    have hactive := horderly.active_of_terminated ht
    refine ⟨hactive, ?_, rfl, hnumbered.emitted.trans (Count.cap_eq hreports)⟩
    have hbalance := hledger.balance
    rw [hactive] at hbalance
    exact hbalance.symm

/-- A run whose first operation breaks down, with a report before and after it is heard, and which is interrupted
then. -/
theorem two_reports_form_series :
    ∃ (c : Controller KeyList) (s : System KeyList),
      start? Plan.default (KeyList.ofArray #["a", "b"]) true 0 = some c ∧
      (System.init c).Leads [(0, .tick), (3, .report), (5, .finish 0 (.brokeDown Duration.zero)), (7, .receive),
        (8, .report), (9, .interrupt)] s ∧
      s.controller.reports.toList.map Snapshot.tick = [1, 2] ∧
      s.controller.reports.toList.Pairwise Snapshot.Precedes ∧
      (∀ r ∈ s.controller.reports, r.Precedes (s.controller.summary 9).snapshot) ∧
      (s.controller.summary 9).snapshot.inFlight = 0 ∧ (s.controller.summary 9).snapshot.sent = 1 ∧
      (s.controller.summary 9).reportsEmitted = 2 := by
  obtain ⟨c, hstart, s, hleads, hcalls, hsent, hsize, ht⟩ : ∃ c : Controller KeyList,
      start? Plan.default (KeyList.ofArray #["a", "b"]) true 0 = some c ∧ ∃ s, (System.init c).Leads
      ([] ++ [(0, .tick)] ++ [(3, .report)] ++ [(5, .finish 0 (.brokeDown Duration.zero))] ++ [(7, .receive)]
        ++ [(8, .report)] ++ [(9, .interrupt)]) s ∧
      s.controller.calls.size = 1 ∧ (s.controller.summary 9).snapshot.sent = 1 ∧ s.controller.reports.size = 2 ∧
      s.controller.isTerminated = true := by
    refine ⟨_, rfl, _, .snoc (.snoc (.snoc (.snoc (.snoc (.snoc .nil rfl) rfl) rfl) rfl) rfl) rfl, ?_, ?_, ?_, ?_⟩
      <;> rfl
  have hfew : s.controller.calls.size ≤ Count.top := by rw [hcalls]; decide
  have hreports : s.controller.reports.size ≤ Count.top := by rw [hsize]; decide
  obtain ⟨hticks, hpairwise, _, _, hsummary, hended⟩ := reports_form_series hstart hleads (by simp) hfew hreports
  obtain ⟨hactive, _, _, hemitted⟩ := hended ht 9
  rw [hsize] at hticks hemitted
  exact ⟨c, s, hstart, hleads, hticks, hpairwise, hsummary 9 (by simp), hactive, hsent, hemitted⟩

end System
end Run
end Cadence
