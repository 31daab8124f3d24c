import Cadence.Benchmark.Preparation
import Cadence.Report.Progress
import Cadence.Report.Summary

/-!
# Performing a command

A command is prepared, announced and run; an upload then keeps the identifiers that it made; at last the summary is
printed. What is seen of it is a `Performance`.

* `perform` is all that a command does.
* `perform_unprepared`: a command that cannot begin prints nothing, and changes no file.
-/

namespace Cadence.Benchmark

open CommandLine (Command)

/-- What is seen of a command: its exit code if it ends, what it prints, why it failed, its notes, the files after
it, and the course of its run if there was one. -/
structure Performance where
  exit : Option ExitCode
  output : String
  failure : Option Failure
  notes : List Log.Record
  tree : FileTree
  course : Option Run.Course

/-- A command that failed before it ran. -/
def Performance.failed (f : Failure) (notes : List Log.Record) (tree : FileTree) : Performance :=
  ⟨some f.exitCode, "", some f, notes, tree, none⟩

/-- What is about to be run. -/
def header (c : Command) (workload : String) : Report.Header where
  operation := c.operation
  target := c.target
  workload := workload
  rate := c.common.rate
  tick := c.common.tick
  targetRate := c.common.config.targetRate
  maxDuration := c.common.duration

/-- The note on an interrupt. -/
def interruptNote : Log.Record := ⟨.info, "interrupt received, draining in-flight operations", []⟩

/-- The records of a note of the run. -/
def noteRecords : Run.Note → List Log.Record
  | .draining .interrupted inFlight sent => [interruptNote, (Run.Note.draining .interrupted inFlight sent).record]
  | n => [n.record]

/-- The notes of the exchange behind a completion, unless it was cut off. -/
def exchangeNotes (exchange : Nat → Item → Exchange) (calls : Array Run.Call) (c : Run.Completion) :
    List Log.Record :=
  match calls[c.operation]? with
  | none => []
  | some call =>
    let x := exchange c.operation call.item
    match x.behaviour with
    | .finishes _ o => if o = c.outcome then x.notes else []
    | _ => []

/-- The notes of a run and its exchanges in one log: those of an exchange stand before the note on its failure, if
there is one, and before the end of the run. -/
def mergeNotes (ofCompletion : Run.Completion → List Log.Record) :
    List Run.Completion → List Run.Note → List Log.Record
  | cs, [] => cs.flatMap ofCompletion
  | cs, n :: ns =>
    match n with
    | .operationFailed _ =>
      let before := cs.takeWhile fun c => c.outcome.succeeded
      let rest := cs.dropWhile fun c => c.outcome.succeeded
      (before ++ rest.take 1).flatMap ofCompletion ++ noteRecords n ++ mergeNotes ofCompletion (rest.drop 1) ns
    | .terminated _ _ _ _ => cs.flatMap ofCompletion ++ noteRecords n ++ mergeNotes ofCompletion [] ns
    | _ => noteRecords n ++ mergeNotes ofCompletion cs ns

/-- The notes of a run. -/
def courseNotes (exchange : Nat → Item → Exchange) (course : Run.Course) : List Log.Record :=
  mergeNotes (exchangeNotes exchange course.calls) course.completions.toList course.notes.toList

/-- What comes of keeping the identifiers of a run: what was kept, the notes on it, and the files after it. -/
structure Kept where
  result : Except Failure (Option Report.Persisted)
  notes : List Log.Record
  tree : FileTree

/-- The failure of a command that could not write its identifiers. -/
def writeFailure (path : String) (f : Fault) : Failure :=
  Failure.within ⟨false, f.causes⟩ ("failed to write CIDs to " ++ path)

/-- Keeps the identifiers that an upload made; other commands make none. -/
def keep (c : Command) (tree : FileTree) (produced : List String) : Kept :=
  match c with
  | .upload _ _ _ path =>
    let flush := (Sink.ofPath path).flush tree produced
    { result := match flush.wrote with
        | .ok true => .ok (some ⟨path, produced.length⟩)
        | .ok false => .ok none
        | .error f => .error (writeFailure path f)
      notes := flush.records
      tree := flush.tree }
  | _ => ⟨.ok none, [], tree⟩

/-- What is printed up to the end of a run: the header and a report after the other. -/
def opening (c : Command) (workload : String) (course : Run.Course) : String :=
  (header c workload).render c.common.output
    ++ String.join (course.reports.toList.map fun s => Report.progressText c.operation s c.common.output)

/-- What is seen after a run has come to an end. -/
def conclude (c : Command) (printed : String) (notes : List Log.Record) (tree : FileTree) (course : Run.Course)
    (summary : Run.Summary) : Performance :=
  let kept := keep c tree summary.produced
  match kept.result with
  | .error f => ⟨some f.exitCode, printed, some f, notes ++ kept.notes, kept.tree, some course⟩
  | .ok persisted =>
    ⟨some .success, printed ++ Report.summaryText c.operation summary persisted c.common.output, none,
      notes ++ kept.notes, kept.tree, some course⟩

/-- What is seen of a command that was prepared and whose run took a course, given what its operations did. -/
def present (c : Command) (p : Prepared) (tree : FileTree) (exchange : Nat → Item → Exchange) (course : Run.Course) :
    Performance :=
  let printed := opening c p.workload course
  let notes := p.notes ++ courseNotes exchange course
  match course.ending with
  | .summed summary => conclude c printed notes tree course summary
  | .refused f =>
    let failure := Failure.ofFault f
    ⟨some failure.exitCode, printed, some failure, notes, tree, some course⟩
  | _ => ⟨none, printed, none, notes, tree, some course⟩

/-- Runs a command that is prepared, on the virtual clock. -/
def performPrepared (c : Command) (p : Prepared) (tree : FileTree) (s : Surroundings) : Performance :=
  match c.common.config.plan with
  | .error f => .failed (Failure.ofFault f) p.notes tree
  | .ok plan =>
    present c p tree (s.exchange p.executor plan.timeout)
      (Run.simulate plan.toConfig p.source p.source.supply true (s.environment p.executor plan.timeout))

/-- Performs a command, as long as the process lives. -/
def perform (c : Command) (tree : FileTree) (s : Surroundings) : Performance :=
  match prepare s.idna c tree s.chance with
  | .error f => .failed f [] tree
  | .ok p => performPrepared c p tree s

theorem perform_unprepared {c : Command} {tree : FileTree} {s : Surroundings} {f : Failure}
    (h : prepare s.idna c tree s.chance = .error f) :
    (perform c tree s).output = "" ∧ (perform c tree s).tree = tree
      ∧ (perform c tree s).exit = some f.exitCode := by
  simp [perform, h, Performance.failed]

end Cadence.Benchmark
