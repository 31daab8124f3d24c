import Cadence.Benchmark.Performance
import Cadence.Run.Process

/-!
# A command in its process

A command as it looks from outside, whatever its operations do and in whatever order things happen: what is seen of it
follows from how its run goes, and that can go in any of the ways in which runs can.

* `Performs` relates a command to the ways in which it can go.
-/

namespace Cadence.Benchmark

open CommandLine (Command)

/-- The ways in which a command can go whose run begins at `started`: what happens in it, and what is seen of it. -/
inductive Performs (idna : Url.Idna) (c : Command) (tree : FileTree) (chance : Chance) (started : Nat) :
    List (Nat × Run.Move) → Performance → Prop where
  | unprepared {f} :
    prepare idna c tree chance = .error f →
    Performs idna c tree chance started [] (.failed f [] tree)
  | unplanned {p f} :
    prepare idna c tree chance = .ok p →
    c.common.config.plan = .error f →
    Performs idna c tree chance started [] (.failed (Failure.ofFault f) p.notes tree)
  | ran {p plan moves course} {exchange : Nat → Item → Exchange} :
    prepare idna c tree chance = .ok p →
    c.common.config.plan = .ok plan →
    Run.Runs c.common.config p.source true started moves course →
    Performs idna c tree chance started moves (present c p tree exchange course)

end Cadence.Benchmark
