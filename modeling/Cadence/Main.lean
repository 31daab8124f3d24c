import Cadence.Program
import Cadence.Url.Host.International

/-!
# The command line

The files that a command names are loaded before the program is run on them, and what it wrote is stored after it.
Nobody is reached from here: every connection of a run fails. What the system refuses is what it answered when the file was
looked at.
-/

namespace Cadence

/-- The path that a command reads or writes. -/
def CommandLine.Command.path : CommandLine.Command → String
  | .upload _ _ _ path => path
  | .download _ l => l.cids
  | .findProviders _ l _ => l.cids
  | .indexerLookup _ l _ => l.cids

/-- The path that the words of a command line name, if they name a command. -/
def namedPath? (e : Program.Environment) (words : List String) : Option String :=
  (CommandLine.command (e.api.getD CommandLine.Command.localApi) words).toOption.map (·.path)

/-- A tree in which a path leads to a file that cannot be looked into. -/
def barred (path : String) (answer : SystemError) : FileTree :=
  let tree := (FileTree.empty.makeParents path).2
  match tree.locate path with
  | .ok (.free names _) => tree.put names (.barred false answer)
  | _ => tree

/-- A tree that holds what stands at a path. -/
def load (path : String) : IO FileTree := do
  try
    let contents ← IO.FS.readBinFile path
    return (FileTree.empty.writeWithParents path contents).2
  catch e =>
    match e with
    | .inappropriateType .. => return (FileTree.empty.makeParents (path ++ "/x")).2
    | .permissionDenied _ code _ => return barred path (.code code.toNat)
    | _ => return .empty

/-- Writes the file at a path as it stands in a tree, with the directories that it needs. -/
def store (path : String) (tree : FileTree) : IO Unit := do
  match tree.read path with
  | .error _ => return
  | .ok contents =>
    let (absolute, names) := FileTree.parts path
    let above := FileTree.join absolute names.dropLast
    unless above.isEmpty do IO.FS.createDirAll above
    IO.FS.writeBinFile path contents

/-- The most bytes that addresses of 47 bits can tell apart. -/
def memory : Nat := 140737488355328

/-- Chance, an unreachable network, no interrupt, the memory of one process, and the rules for common names. -/
def surroundings : IO Benchmark.Surroundings := do
  let seed ← IO.monoNanosNow
  return Benchmark.offline (.ofSeed (UInt64.ofNat seed)) (fun size => if size < memory then none else some 0) .common

/-- Stores what a run wrote, if it changed the file. -/
def keep (path : String) (before after : FileTree) : IO Unit := do
  let old := (before.read path).toOption.map ByteArray.toList
  let new := (after.read path).toOption.map ByteArray.toList
  unless old == new do store path after

end Cadence

open Cadence in
/-- Runs the program on the words of the command line. -/
def main (words : List String) : IO UInt32 := do
  let e : Program.Environment := ⟨← IO.getEnv "CIDBENCH_API", ← IO.getEnv "RUST_LOG"⟩
  let path? := namedPath? e words
  let tree ← match path? with
    | some path => load path
    | none => pure .empty
  let ending := Program.run e words tree (← surroundings)
  IO.print ending.output
  IO.eprint ending.diagnostics
  if let some path := path? then keep path tree ending.tree
  return UInt32.ofNat (ending.exit.elim (if ending.aborted then 134 else 101) ExitCode.number)
