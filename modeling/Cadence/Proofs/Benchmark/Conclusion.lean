import Cadence.Benchmark.Performance
import Cadence.Proofs.Exchange.Judgement
import Cadence.Proofs.Identifiers

/-!
# How an upload comes to its end

A command that ran was prepared, and what is seen of it follows from how its run came out (`perform_inv`). An upload
whose run was summed up prints the summary at its end, unless its identifiers could not be written: then it ends without
(`summary_is_printed_unless_writing_fails`).
-/

namespace Cadence.Benchmark

open CommandLine (Command Common)

/-- The summary that a run came to. -/
def summary? (course : Run.Course) : Option Run.Summary :=
  match course.ending with
  | .summed summary => some summary
  | _ => none

lemma summary?_eq_some_iff {course : Run.Course} {summary : Run.Summary} :
    summary? course = some summary ↔ course.ending = .summed summary := by
  unfold summary?
  cases course.ending <;> simp

/-- One upload of one byte, whose identifier goes to the file at a path. -/
def uploadTo (path : String) : Command := .upload (.default Command.localApi) 1 1 path

variable {c : Command} {tree after : FileTree} {s : Surroundings} {course : Run.Course} {summary : Run.Summary}

lemma conclude_course {printed notes} :
    (conclude c printed notes tree course summary).course = some course := by
  unfold conclude
  dsimp only
  split <;> rfl

/-- However the run of a command comes out, its course is seen. -/
lemma present_course (p : Prepared) (exchange : Nat → Item → Exchange) :
    (present c p tree exchange course).course = some course := by
  unfold present
  dsimp only
  split
  · exact conclude_course
  · rfl
  · rfl

/-- A command whose run was summed up concludes. -/
lemma present_of_summed (p : Prepared) (exchange : Nat → Item → Exchange) (h : course.ending = .summed summary) :
    present c p tree exchange course
      = conclude c (opening c p.workload course) (p.notes ++ courseNotes exchange course) tree course summary := by
  unfold present
  rw [h]

/-- A command that ran was prepared and had valid pacing; it ran what it was prepared to, and what is seen of it is how its
run came out. -/
lemma perform_inv (h : (perform c tree s).course = some course) :
    ∃ p, prepare s.idna c tree s.chance = .ok p ∧ c.common.config.Valid ∧
      Run.simulate c.common.config p.source p.source.supply true
        (s.environment p.executor c.common.config.timeout) = course ∧
      perform c tree s = present c p tree (s.exchange p.executor c.common.config.timeout) course := by
  unfold perform at h ⊢
  split at h
  · cases h
  · next p hp =>
    refine ⟨p, hp, ?_⟩
    unfold performPrepared at h ⊢
    cases hplan : c.common.config.plan with
    | error f =>
      rw [hplan] at h
      cases h
    | ok plan =>
      rw [hplan] at h
      have hconfig := Config.plan_eq_ok_iff.mp hplan
      dsimp only at h ⊢
      rw [present_course] at h
      rw [← hconfig, ← Option.some.inj h]
      exact ⟨plan.valid, rfl, rfl⟩

/-- What can be seen of an upload whose run was summed up, after everything that was printed before. -/
inductive Concludes (common : Common) (path : String) (tree : FileTree) (printed : String) (course : Run.Course)
    (summary : Run.Summary) : Performance → Prop where
  | untouched {notes} :
    summary.produced = [] →
    Concludes common path tree printed course summary
      ⟨some .success, printed ++ Report.summaryText .upload summary none common.output, none, notes, tree, some course⟩
  | written {notes after} :
    summary.produced ≠ [] →
    Identifiers.write tree path summary.produced = (.ok (), after) →
    Concludes common path tree printed course summary
      ⟨some .success,
        printed ++ Report.summaryText .upload summary (some ⟨path, summary.produced.length⟩) common.output,
        none, notes, after, some course⟩
  | unwritable {notes f after} :
    summary.produced ≠ [] →
    Identifiers.write tree path summary.produced = (.error f, after) →
    Concludes common path tree printed course summary
      ⟨some .runtimeError, printed, some (writeFailure path f), notes, after, some course⟩

variable {common : Common} {size count : Nat} {path : String}

lemma concludes {printed : String} {notes : List Log.Record} :
    Concludes common path tree printed course summary
      (conclude (.upload common size count path) printed notes tree course summary) := by
  by_cases hids : summary.produced = []
  · simp only [conclude, keep, hids, Sink.flush_nil]
    exact .untouched hids
  · cases hwrite : Identifiers.write tree path summary.produced with
    | mk result after =>
      cases result with
      | ok =>
        simp only [conclude, keep, Sink.flush_of_write hids hwrite]
        exact .written hids hwrite
      | error f =>
        simp only [conclude, keep, Sink.flush_of_fault hids hwrite]
        exact .unwritable hids hwrite

/-- How many operations a command completed, and the identifiers that they made, if its run was summed up. -/
def yield? (c : Command) (tree : FileTree) (s : Surroundings) : Option (Nat × List String) :=
  ((perform c tree s).course.bind summary?).map fun summary => (summary.snapshot.completed, summary.produced)

lemma yield?_inv {n : Nat} {ids : List String} (h : yield? c tree s = some (n, ids)) :
    ∃ course summary, (perform c tree s).course = some course ∧ course.ending = .summed summary ∧
      summary.snapshot.completed = n ∧ summary.produced = ids := by
  obtain ⟨summary, hbind, hfacts⟩ := Option.map_eq_some_iff.mp h
  obtain ⟨course, hcourse, hended⟩ := Option.bind_eq_some_iff.mp hbind
  obtain ⟨hcompleted, hproduced⟩ := Prod.mk.inj hfacts
  exact ⟨course, summary, hcourse, summary?_eq_some_iff.mp hended, hcompleted, hproduced⟩

/-- An upload whose run was summed up ran what it was prepared to, and concludes. -/
theorem perform_concludes (hcourse : (perform (.upload common size count path) tree s).course = some course)
    (hended : course.ending = .summed summary) :
    ∃ p, prepare s.idna (.upload common size count path) tree s.chance = .ok p ∧
      Run.simulate common.config p.source p.source.supply true (s.environment p.executor common.config.timeout)
        = course ∧
      Concludes common path tree (opening (.upload common size count path) p.workload course) course summary
        (perform (.upload common size count path) tree s) := by
  obtain ⟨p, hp, _, hrun, hseen⟩ := perform_inv hcourse
  refine ⟨p, hp, hrun, ?_⟩
  rw [hseen, present_of_summed p _ hended]
  exact concludes

/-- An upload whose run was summed up prints the summary once, at its end, in the format that was chosen, and succeeds:
with nothing to keep, or with the identifiers written. If these cannot be written, it prints no summary, and its exit
code and its failure tell so. -/
theorem summary_is_printed_unless_writing_fails
    (hcourse : (perform (.upload common size count path) tree s).course = some course)
    (hended : course.ending = .summed summary) :
    ∃ p, prepare s.idna (.upload common size count path) tree s.chance = .ok p ∧
      let seen := perform (.upload common size count path) tree s
      let printed := opening (.upload common size count path) p.workload course
      (summary.produced = [] →
        seen.output = printed ++ Report.summaryText .upload summary none common.output ∧
        seen.exit = some .success ∧ seen.failure = none ∧ seen.tree = tree) ∧
      (∀ after, summary.produced ≠ [] → Identifiers.write tree path summary.produced = (.ok (), after) →
        seen.output = printed ++
          Report.summaryText .upload summary (some ⟨path, summary.produced.length⟩) common.output ∧
        seen.exit = some .success ∧ seen.failure = none ∧ seen.tree = after) ∧
      (∀ f after, summary.produced ≠ [] → Identifiers.write tree path summary.produced = (.error f, after) →
        seen.output = printed ∧ seen.exit = some .runtimeError ∧ seen.failure = some (writeFailure path f) ∧
        seen.tree = after) := by
  obtain ⟨p, hp, _, hseen⟩ := perform_concludes hcourse hended
  refine ⟨p, hp, ?_⟩
  generalize perform (.upload common size count path) tree s = seen at hseen ⊢
  cases hseen with
  | untouched hnone =>
    refine ⟨fun _ => ⟨rfl, rfl, rfl, rfl⟩, fun after hids => ?_, fun f after hids => ?_⟩
    · exact absurd hnone hids
    · exact absurd hnone hids
  | written hids hwrite =>
    refine ⟨fun hnone => absurd hnone hids, fun after _ h => ?_, fun f after _ h => ?_⟩
    · cases hwrite.symm.trans h
      exact ⟨rfl, rfl, rfl, rfl⟩
    · cases hwrite.symm.trans h
  | unwritable hids hwrite =>
    refine ⟨fun hnone => absurd hnone hids, fun after _ h => ?_, fun f after _ h => ?_⟩
    · cases hwrite.symm.trans h
    · cases hwrite.symm.trans h
      exact ⟨rfl, rfl, rfl, rfl⟩

/-- The working directory cannot be written as a file: the upload has succeeded, but nothing is said of it. -/
theorem unwritable_list_loses_summary :
    ∃ course summary workload,
      let seen := perform (uploadTo ".") .empty (answering "\x7b\"Hash\":\"bafya\"\x7d")
      seen.course = some course ∧ course.ending = .summed summary ∧ summary.snapshot.completed = 1 ∧
      summary.produced = ["bafya"] ∧ seen.output = opening (uploadTo ".") workload course ∧
      seen.exit = some .runtimeError := by
  have hyield : yield? (uploadTo ".") .empty (answering "\x7b\"Hash\":\"bafya\"\x7d") = some (1, ["bafya"]) := by
    decide +kernel
  obtain ⟨course, summary, hcourse, hended, hcompleted, hproduced⟩ := yield?_inv hyield
  have hwrite : Identifiers.write .empty "." summary.produced = (.error (.system .isDirectory), .empty) := by
    rw [Identifiers.write, FileTree.writeWithParents_of_isDirectory (by decide +kernel) (by decide +kernel)]
  obtain ⟨p, _, _, _, hfailed⟩ := summary_is_printed_unless_writing_fails hcourse hended
  obtain ⟨houtput, hexit, _⟩ := hfailed _ _ (by rw [hproduced]; exact nofun) hwrite
  exact ⟨course, summary, p.workload, hcourse, hended, hcompleted, hproduced, houtput, hexit⟩

end Cadence.Benchmark
