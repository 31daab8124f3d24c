import Cadence.Benchmark.Performance

/-!
# Commands that are taken down

A process that is refused memory comes to an end at once, with everything that it does. The run of an upload gets as far as
to the first operation that is refused the memory for its payload; what was printed until then is all that is seen of it.

* `collapse?` tells whether a command is taken down, and by what.
* `reached` is the part of its run that was carried out.
-/

namespace Cadence.Benchmark

open CommandLine (Command)

/-- The end of a command that was taken down: what it printed before, its notes, the part of its run that was carried out,
and the bytes that it was refused. -/
structure Collapse where
  output : String
  notes : List Log.Record
  course : Run.Course
  bytes : Nat

/-- The first of the payloads of a workload for which there is no memory, by its number, and its bytes. -/
def Surroundings.refusal? (s : Surroundings) : Workload → Option (Nat × Nat)
  | .payloads p => if largestBlock < p.size then none else (s.memory p.size).map fun i => (i, p.size)
  | .keys _ => none

/-- Whether a run gets to the operation of a number. One that nothing stops gets to all of them. -/
def gets (course : Run.Course) (i : Nat) : Bool :=
  match course.ending with
  | .endless => true
  | _ => i < course.calls.size

/-- The end of a command that is taken down, given the course that its run would take. -/
def collapse? (c : Command) (tree : FileTree) (s : Surroundings) (course : Option Run.Course) : Option Collapse :=
  match prepare s.idna c tree s.chance, course with
  | .ok p, some course =>
    match s.refusal? p.source with
    | none => none
    | some (i, bytes) =>
      if gets course i then
        let config := c.common.config
        let part := Run.beginning config p.source true (s.environment p.executor config.timeout) i
        some ⟨opening c p.workload part, p.notes ++ courseNotes (s.exchange p.executor config.timeout) part, part, bytes⟩
      else none
  | _, _ => none

/-- The run of a command as far as it was carried out, if it had any. -/
def reached (c : Command) (tree : FileTree) (s : Surroundings) : Option Run.Course :=
  let course := (perform c tree s).course
  match collapse? c tree s course with
  | some collapse => some collapse.course
  | none => course

end Cadence.Benchmark
