import Cadence.Proofs.Benchmark.Conclusion
import Cadence.Proofs.Benchmark.Preparation
import Cadence.Proofs.Identifiers.Sink
import Cadence.Proofs.Simulation.Course
import Cadence.Proofs.Workload.Supply

/-!
# How a command comes out

A command that is prepared runs its workload, and what is seen of it follows from how its run comes out
(`Prepared.comes`), and once that was summed up, from whether its identifiers can be written (`concluded`). If it has to
stop some time it does (`Prepared.run_ends`), and if nothing ever stops it, it goes on for ever (`Prepared.endless`).
-/

namespace Cadence.Benchmark

open CommandLine (Command Common)

/-- The run of a command as it was prepared. -/
def Prepared.run (p : Prepared) (c : Command) (s : Surroundings) : Run.Course :=
  Run.simulate c.common.config p.source p.source.supply true (s.environment p.executor c.common.config.timeout)

/-- What is seen of a command whose run came out. -/
inductive Comes (c : Command) (p : Prepared) (tree : FileTree) (course : Run.Course) : Performance → Prop where
  | summed {summary notes} :
    course.ending = .summed summary →
    Comes c p tree course (conclude c (opening c p.workload course) notes tree course summary)
  | refused {f notes} :
    course.ending = .refused f →
    Comes c p tree course ⟨some (Failure.ofFault f).exitCode, opening c p.workload course, some (Failure.ofFault f),
      notes, tree, some course⟩
  | open {notes} :
    (∀ summary, course.ending ≠ .summed summary) →
    (∀ f, course.ending ≠ .refused f) →
    Comes c p tree course ⟨none, opening c p.workload course, none, notes, tree, some course⟩

variable {c : Command} {tree : FileTree} {s : Surroundings} {p : Prepared}

/-- A command that was prepared and ran comes out as its run does, whatever its operations did. -/
lemma comes_of_present (p : Prepared) (exchange : Nat → Item → Exchange) (course : Run.Course) :
    Comes c p tree course (present c p tree exchange course) := by
  unfold present
  cases hended : course.ending with
  | summed summary => exact .summed hended
  | refused f => exact .refused hended
  | clockOverflow | endless =>
    apply Comes.open
    all_goals intro _ h; cases hended.symm.trans h

/-- A command with valid pacing that is prepared runs, and comes out as its run does. -/
theorem Prepared.comes (hp : prepare s.idna c tree s.chance = .ok p) (hvalid : c.common.config.Valid) :
    Comes c p tree (p.run c s) (perform c tree s) := by
  have hplan : c.common.config.plan = .ok ⟨c.common.config, hvalid⟩ := Config.plan_eq_ok_iff.mpr rfl
  simp only [perform, hp, performPrepared, hplan]
  exact comes_of_present p _ _

/-- An upload wrote the identifiers of its run to the file at a path: it holds them, one a line, and nothing else has
changed but for new directories. -/
structure Wrote (c : Command) (tree after : FileTree) (path : String) (ids : List String) : Prop where
  upload : ∃ common size count, c = .upload common size count path
  nonempty : ids ≠ []
  write : Identifiers.write tree path ids = (.ok (), after)
  holds : FileTree.Holds path (Sink.contentsOf ids) tree after

/-- Identifiers that were written are in their file. -/
lemma wrote_of_write {common : Common} {size count : Nat} {path : String} {after : FileTree} {ids : List String}
    (hids : ids ≠ []) (h : Identifiers.write tree path ids = (.ok (), after)) :
    Wrote (.upload common size count path) tree after path ids := by
  refine ⟨⟨_, _, _, rfl⟩, hids, h, ?_⟩
  obtain ⟨done, hdone, hresult⟩ := Sink.write_inv h
  cases done with
  | error => cases hresult
  | ok => exact FileTree.writeWithParents_holds hdone

/-- What a command that succeeds keeps of the identifiers of its run. -/
inductive Keeps (c : Command) (tree : FileTree) (ids : List String) : Option Report.Persisted → FileTree → Prop where
  | nothing :
    (∀ common size count path, c = .upload common size count path → ids = []) →
    Keeps c tree ids none tree
  | written {path after} :
    Wrote c tree after path ids →
    Keeps c tree ids (some ⟨path, ids.length⟩) after

/-- What is seen of a command whose run was summed up: it succeeds and prints its summary last, unless it is an upload
whose identifiers cannot be written. -/
inductive Concluded (c : Command) (tree : FileTree) (printed : String) (course : Run.Course) (summary : Run.Summary) :
    Performance → Prop where
  | kept {persisted after notes} :
    Keeps c tree summary.produced persisted after →
    Concluded c tree printed course summary
      ⟨some .success, printed ++ Report.summaryText c.operation summary persisted c.common.output, none, notes, after,
        some course⟩
  | unwritable {common size count path f after notes} :
    c = .upload common size count path →
    summary.produced ≠ [] →
    Identifiers.write tree path summary.produced = (.error f, after) →
    Concluded c tree printed course summary
      ⟨some .runtimeError, printed, some (writeFailure path f), notes, after, some course⟩

/-- A command that works through a list keeps nothing and prints its summary. -/
lemma conclude_listing {l} (h : c.listing? = some l) {printed notes} {course : Run.Course} {summary : Run.Summary} :
    conclude c printed notes tree course summary
      = ⟨some .success, printed ++ Report.summaryText c.operation summary none c.common.output, none, notes ++ [], tree,
        some course⟩ := by
  cases c <;> cases h
  all_goals rfl

/-- However its run was summed up, a command concludes. -/
lemma concluded (printed : String) (notes : List Log.Record) (tree : FileTree) (course : Run.Course)
    (summary : Run.Summary) :
    Concluded c tree printed course summary (conclude c printed notes tree course summary) := by
  cases hl : c.listing? with
  | some l =>
    rw [conclude_listing hl]
    refine .kept (.nothing fun _ _ _ _ hc => ?_)
    subst hc
    cases hl
  | none =>
    obtain ⟨common, size, count, path, rfl⟩ := upload_of_listing? hl
    have hconcludes : Concludes common path tree printed course summary
        (conclude (.upload common size count path) printed notes tree course summary) := concludes
    generalize conclude (.upload common size count path) printed notes tree course summary = seen at hconcludes ⊢
    cases hconcludes with
    | untouched hids => exact .kept (.nothing fun _ _ _ _ _ => hids)
    | written hids hwrite => exact .kept (.written (wrote_of_write hids hwrite))
    | unwritable hids hwrite => exact .unwritable rfl hids hwrite

/-- The run of an upload was summed up with identifiers that cannot be written. -/
inductive Unwritable (tree : FileTree) (course : Option Run.Course) : Command → Prop where
  | upload {common size count path summary f after} :
    course.bind summary? = some summary →
    summary.produced ≠ [] →
    Identifiers.write tree path summary.produced = (.error f, after) →
    Unwritable tree course (.upload common size count path)

/-- A command whose run was summed up has that run for its course, and succeeds unless its identifiers cannot be written. -/
lemma Concluded.exit_cases {printed : String} {course : Run.Course} {summary : Run.Summary} {seen : Performance}
    (h : Concluded c tree printed course summary seen) (hended : course.ending = .summed summary) :
    seen.course = some course ∧
      ((Unwritable tree (some course) c ∧ seen.exit = some .runtimeError) ∨
        (¬ Unwritable tree (some course) c ∧ seen.exit = some .success)) := by
  have hsummary : (some course).bind summary? = some summary := summary?_eq_some_iff.mpr hended
  cases h with
  | kept hkeeps =>
    refine ⟨rfl, .inr ⟨fun h => ?_, rfl⟩⟩
    obtain ⟨hsummary', hids, hwrite⟩ := h
    obtain rfl := Option.some.inj (hsummary.symm.trans hsummary')
    cases hkeeps with
    | nothing hnone => exact hids (hnone _ _ _ _ rfl)
    | written hwrote =>
      obtain ⟨_, _, _, hc⟩ := hwrote.upload
      cases hc
      cases hwrote.write.symm.trans hwrite
  | unwritable hc hids hwrite =>
    subst hc
    exact ⟨rfl, .inl ⟨.upload hsummary hids hwrite, rfl⟩⟩

/-- However it comes out, the course of the run is that of the command. -/
lemma Comes.course_eq {course : Run.Course} {seen : Performance} (h : Comes c p tree course seen) :
    seen.course = some course := by
  cases h with
  | summed => exact conclude_course
  | refused => rfl
  | «open» => rfl

/-- A command that ran was prepared, and it came out as its run did. -/
lemma perform_comes {course : Run.Course} (h : (perform c tree s).course = some course) :
    ∃ p, prepare s.idna c tree s.chance = .ok p ∧ p.run c s = course ∧ Comes c p tree course (perform c tree s) := by
  obtain ⟨p, hp, _, hrun, hseen⟩ := perform_inv h
  refine ⟨p, hp, hrun, ?_⟩
  rw [hseen]
  exact comes_of_present p _ course

/-- A command is prepared with a workload that nothing was drawn from. -/
lemma Prepared.fresh {idna : Url.Idna} {chance : Chance} (hp : prepare idna c tree chance = .ok p) : p.source.Fresh := by
  cases hl : c.listing? with
  | none =>
    obtain ⟨common, size, count, path, rfl⟩ := upload_of_listing? hl
    rw [prepare_upload_inv hp]
    exact .payloads _ _
  | some l =>
    obtain ⟨text, _, hsource⟩ := prepare_listing_inv hp hl
    rw [hsource, arrange]
    split
    · exact .keys _
    · split
      · exact .keys _
      · exact .keys _

/-- Nothing stops a command: it uploads without a count, no largest duration is given, and nobody interrupts it. -/
inductive Endless (s : Surroundings) : Command → Prop where
  | upload {common size path} : common.duration = none → s.interrupt = none → Endless s (.upload common size 0 path)

/-- A command that something stops has to stop some time. -/
lemma Prepared.bounded (hp : prepare s.idna c tree s.chance = .ok p) (h : ¬ Endless s c) :
    p.source.supply.isSome = true ∨ c.common.config.maxDuration.isSome = true ∨ s.interrupt.isSome = true := by
  cases hl : c.listing? with
  | some l =>
    obtain ⟨text, _, hsource⟩ := prepare_listing_inv hp hl
    rw [hsource]
    exact .inl rfl
  | none =>
    obtain ⟨common, size, count, path, rfl⟩ := upload_of_listing? hl
    rw [prepare_upload_inv hp]
    by_cases hcount : count = 0
    · subst hcount
      right
      by_cases hd : common.duration = none
      · by_cases hi : s.interrupt = none
        · exact absurd (.upload hd hi) h
        · exact .inr (Option.isSome_iff_ne_none.mpr hi)
      · exact .inl (Option.isSome_iff_ne_none.mpr hd)
    · exact .inl (by simp [Workload.supply, uploadCount, hcount])

/-- The clock can represent the first report and the deadline of a run that starts at zero. -/
structure Representable (c : Command) : Prop where
  report : c.common.reportInterval.nanos < Clock.limit
  deadline : ∀ d, c.common.duration = some d → d.nanos < Clock.limit

open Run Simulation in
/-- A command that something stops comes to the end of its run, as long as fewer than `2 ^ 64` operations are
dispatched. -/
theorem Prepared.run_ends (hp : prepare s.idna c tree s.chance = .ok p) (hvalid : c.common.config.Valid)
    (hclock : Representable c) (hstops : ¬ Endless s c) (hfew : (p.run c s).calls.size ≤ Count.top) :
    ∃ deadline n k, ∃ t : Simulation Workload,
      Controller.deadline? ⟨c.common.config, hvalid⟩ 0 = some deadline ∧
      Sound (s.environment p.executor c.common.config.timeout) ⟨c.common.config, hvalid⟩ deadline p.source n k t ∧
      System.Ledger t.system ∧ t.controller.isTerminated = true ∧ t.controller.started = 0 ∧
      p.run c s = .of t.controller (.summed (t.controller.summary t.now)) #[t.controller.closingNote] := by
  have hfresh := Prepared.fresh hp
  have hbounded := Prepared.bounded hp hstops
  unfold Prepared.run at hfew ⊢
  rw [hfresh.supply_eq] at hbounded hfew ⊢
  exact simulate_ends hvalid hfresh.honest hbounded hclock.report hclock.deadline hfew

/-- The run of a command that something stops is summed up. -/
lemma Prepared.summed (hp : prepare s.idna c tree s.chance = .ok p) (hvalid : c.common.config.Valid)
    (hclock : Representable c) (hstops : ¬ Endless s c) (hfew : (p.run c s).calls.size ≤ Count.top) :
    ∃ summary, (p.run c s).ending = .summed summary := by
  obtain ⟨_, _, _, _, _, _, _, _, _, hrun⟩ := Prepared.run_ends hp hvalid hclock hstops hfew
  rw [hrun]
  exact ⟨_, rfl⟩

/-- A command that nothing stops begins and goes on for ever. -/
theorem Prepared.endless (hp : prepare s.idna c tree s.chance = .ok p) (hvalid : c.common.config.Valid)
    (hclock : Representable c) (h : Endless s c) : (p.run c s).ending = .endless := by
  obtain @⟨common, size, path, hduration, hinterrupt⟩ := h
  have hsource := prepare_upload_inv hp
  have hplan : common.config.plan = .ok ⟨common.config, hvalid⟩ := Config.plan_eq_ok_iff.mpr rfl
  obtain ⟨started, hstart⟩ : ∃ started,
      Run.Controller.start? ⟨common.config, hvalid⟩ p.source true 0 = some started :=
    Run.start?_eq p.source true hclock.report hclock.deadline
  have hhorizon : Run.Simulation.horizon (s.environment p.executor common.config.timeout) ⟨common.config, hvalid⟩
      p.source.supply = none := by
    rw [hsource]
    simp [Run.Simulation.horizon, Surroundings.environment, hinterrupt, Workload.supply, uploadCount, Common.config,
      hduration]
  simp only [Prepared.run, Command.common, Run.simulate]
  rw [hplan]
  dsimp only
  rw [hstart]
  dsimp only
  rw [hhorizon]
  rfl

end Cadence.Benchmark
