import Cadence.Proofs.Benchmark.Conclusion
import Cadence.Proofs.Benchmark.Performance
import Cadence.Proofs.Report.Line
import Cadence.Proofs.Simulation.Closing

/-!
# The output of a command for machines

A command that succeeds prints a line for every report that its run took, and a line for the summary, which closes them
(`machine_output_is_reports_then_summary`). The last line names a file exactly if an upload wrote one (`Wrote`).
-/

namespace Cadence

lemma Failure.exitCode_ne_success (f : Failure) : f.exitCode ≠ .success := by
  unfold exitCode
  split <;> decide

lemma Report.Entry.precedes_ofSnapshot {r q : Snapshot} (h : r.Below q) (kind kind' : String) :
    (ofSnapshot kind r).Precedes (ofSnapshot kind' q) := ⟨h.sent, h.completed, h.failed⟩

namespace Benchmark

open CommandLine (Command)
open Report (Closing Entry IsStream Persisted)

variable {c : Command} {tree : FileTree} {s : Surroundings} {course : Run.Course} {summary : Run.Summary}

/-- Identifiers that were kept were written, all of them. -/
lemma Keeps.iff {ids : List String} {persisted : Option Persisted} {after : FileTree}
    (h : Keeps c tree ids persisted after) (p : Persisted) :
    persisted = some p ↔ Wrote c tree after p.path ids ∧ p.count = ids.length := by
  cases h with
  | nothing hnone =>
    constructor
    · intro h
      cases h
    · rintro ⟨hwrote, _⟩
      obtain ⟨_, _, _, hc⟩ := hwrote.upload
      exact absurd (hnone _ _ _ _ hc) hwrote.nonempty
  | @written path _ hwrote =>
    constructor
    · intro h
      cases h
      exact ⟨hwrote, rfl⟩
    · rintro ⟨hwrote', hcount⟩
      obtain ⟨_, _, _, rfl⟩ := hwrote.upload
      obtain ⟨_, _, _, hc⟩ := hwrote'.upload
      cases hc
      cases p
      cases hcount
      rfl

/-- If no identifiers were kept, no file was changed. -/
lemma Keeps.tree_eq {ids : List String} {after : FileTree} (h : Keeps c tree ids none after) : after = tree := by
  cases h
  rfl

/-- What a command prints for machines up to the end of its run is a line for every report. -/
lemma opening_json (hformat : c.common.output = .json) {workload : String} :
    opening c workload course
      = String.join (course.reports.toList.map fun s => Report.line (Report.progressValue c.operation s)) := by
  unfold opening
  rw [hformat]
  exact String.empty_append

/-- What a command that succeeded has printed for machines: its reports and its summary as a stream of lines. The reports
are those of the run, numbered from one on, and the summary closes them. It names a file exactly if an upload wrote its
identifiers there, and tells how many; otherwise no file was changed. -/
structure Streams (c : Command) (tree : FileTree) (course : Run.Course) (summary : Run.Summary) (seen : Performance)
    (reports : List Entry) (closing : Closing) : Prop where
  stream : IsStream seen.output reports closing
  length : reports.length = course.reports.size
  progress : ∀ e ∈ reports, e.kind = "progress"
  kind : closing.kind = "summary"
  ticks : reports.map Entry.tick = List.range' 1 reports.length
  tick : closing.tick = reports.length
  emitted : closing.reportsEmitted = reports.length
  inFlight : closing.inFlight = 0
  balance : closing.sent = closing.completed + closing.failed
  ascending : (reports ++ [closing.toEntry]).Pairwise Entry.Precedes
  kept : ∀ p, closing.identifiers = some p ↔
    Wrote c tree seen.tree p.path summary.produced ∧ p.count = summary.produced.length
  unchanged : closing.identifiers = none → seen.tree = tree

/-- The lines for a course that its summary closes. -/
lemma streams_of_closes {seen : Performance} {persisted : Option Persisted} (hcloses : course.Closes summary)
    (hkeeps : Keeps c tree summary.produced persisted seen.tree)
    (hstream : IsStream seen.output (course.reports.toList.map (.ofSnapshot "progress"))
      ⟨.ofSnapshot "summary" summary.snapshot, summary.reportsEmitted, persisted⟩) :
    Streams c tree course summary seen (course.reports.toList.map (.ofSnapshot "progress"))
      ⟨.ofSnapshot "summary" summary.snapshot, summary.reportsEmitted, persisted⟩ := by
  have hlength : (course.reports.toList.map (Entry.ofSnapshot "progress")).length = course.reports.size := by simp
  refine ⟨hstream, hlength, ?_, rfl, ?_, ?_, ?_, hcloses.inFlight, hcloses.balance, ?_, hkeeps.iff, ?_⟩
  · intro e he
    obtain ⟨r, _, rfl⟩ := List.mem_map.mp he
    rfl
  · rw [hlength, List.map_map]
    exact hcloses.ticks
  · rw [hlength]
    exact hcloses.tick
  · rw [hlength]
    exact hcloses.emitted
  · have hmono := hcloses.ascending
    rw [List.pairwise_append] at hmono ⊢
    obtain ⟨hpairwise, _, hlast⟩ := hmono
    refine ⟨List.pairwise_map.mpr (hpairwise.imp fun h => Entry.precedes_ofSnapshot h _ _), List.pairwise_singleton _ _,
      fun e he f hf => ?_⟩
    obtain ⟨r, hr, rfl⟩ := List.mem_map.mp he
    obtain rfl := List.mem_singleton.mp hf
    exact Entry.precedes_ofSnapshot (hlast r hr _ List.mem_cons_self) _ _
  · rintro rfl
    exact hkeeps.tree_eq

/-- A command that succeeds has summed up its run, however that came out; for machines it has printed its reports and its
summary as a stream of lines. -/
lemma Comes.streams {p : Prepared} {seen : Performance} (hcomes : Comes c p tree course seen)
    (hformat : c.common.output = .json) (hexit : seen.exit = some .success)
    (hcloses : ∀ summary, course.ending = .summed summary → course.Closes summary) :
    ∃ summary reports closing, course.ending = .summed summary ∧
      Streams c tree course summary seen reports closing := by
  cases hcomes with
  | @summed summary notes hended =>
    have hconcluded := concluded (c := c) (opening c p.workload course) notes tree course summary
    generalize conclude c (opening c p.workload course) notes tree course summary = seen at hconcluded hexit ⊢
    cases hconcluded with
    | @kept persisted after _ hkeeps =>
      refine ⟨summary, _, _, hended, streams_of_closes (hcloses summary hended) hkeeps ?_⟩
      rw [opening_json hformat, hformat]
      exact Report.isStream_lines c.operation course.reports.toList summary persisted
    | unwritable => cases hexit
  | refused => exact absurd (Option.some.inj hexit) (Failure.exitCode_ne_success _)
  | «open» => cases hexit

/-- Two uploads of one byte each, in lines for machines; the path of their identifiers has quotes and a line feed. -/
def quotedUploads : Command :=
  .upload { CommandLine.Common.default Command.localApi with output := .json } 1 2 "\"a\nb\""

/-- What is seen of the two uploads if each of them is answered with the same identifier. -/
def quotedUploadsSeen : Performance := perform quotedUploads .empty (answering "\x7b\"Hash\":\"bafya\"\x7d")

end Benchmark
end Cadence
