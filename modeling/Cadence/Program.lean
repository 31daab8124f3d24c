import Cadence.Benchmark.Collapse
import Cadence.CommandLine.Words
import Cadence.Log.Filter
import Cadence.Log.Line

/-!
# The program

From the words of a command line to what is printed: a command is performed, its records are told as far as the
setting for them asks, and a failure is told last. A process that is refused memory is aborted, and leaves no exit code.

* `Program.run` is the whole program, given what it cannot know in advance.
* `Program.run_tree_of_refusal`: words that name no command change no file.
-/

namespace Cadence.Program

open Benchmark (Surroundings)
open CommandLine (Refusal)

/-- The settings that do not stand on the command line: the address of the node and which records are told. -/
structure Environment where
  api : Option String
  records : Option String

/-- How the program ends: its exit code if it exits at all, what it printed as results and as diagnostics, the files after
it, and whether it was aborted. -/
structure Ending where
  exit : Option ExitCode
  output : String
  diagnostics : String
  tree : FileTree
  aborted : Bool

/-- What the program is for. -/
def purpose : String := "Rate-controlled benchmarks for content-addressed storage gateways"

/-- The program and its version. -/
def version : String := "cidbench 0.1.0"

/-- What one operation is for. -/
def describe : Operation → String
  | .upload => "Add random payloads through the node's RPC API and record the returned CIDs"
  | .download => "Fetch every CID in a list through the node's RPC API"
  | .findProviders => "Ask the node's content router for providers of every CID in a list"
  | .indexerLookup => "Look up every CID in a list against an IPNI indexer"

/-- The lines of the help. -/
def help : List String :=
  [purpose, "", "Usage: cidbench <COMMAND>", "", "Commands:"]
    ++ [Operation.upload, .download, .findProviders, .indexerLookup].map fun op => "  " ++ op.name ++ "  " ++ describe op

/-- Lines of a text. -/
def linesText (ls : List String) : String := String.join (ls.map fun l => l ++ "\n")

/-- The results that a refusal prints. -/
def refusalOutput : Refusal → String
  | .help => linesText help
  | .version => linesText [version]
  | _ => ""

/-- The diagnostics that a refusal prints. -/
def refusalDiagnostics (r : Refusal) : String :=
  match r.message? with
  | some m => linesText ["error: " ++ m, "", "For more information, try '--help'."]
  | none => if r = .nothingAsked then linesText help else ""

/-- How the program ends if its words name no command. -/
def refuse (r : Refusal) (tree : FileTree) : Ending :=
  ⟨some r.exitCode, refusalOutput r, refusalDiagnostics r, tree, false⟩

/-- The diagnostics of a command: the records that are told, and what it says last. -/
def diagnostics (e : Environment) (notes : List Log.Record) (last : List String) : String :=
  linesText (((Log.Filter.ofSetting e.records).keep notes).map Log.Record.line ++ last)

/-- What is said of memory that was refused. -/
def refusedMemory (bytes : Nat) : String := "memory allocation of " ++ toString bytes ++ " bytes failed"

/-- How the program ends if it was performed to its end. -/
def finish (e : Environment) (p : Benchmark.Performance) : Ending :=
  ⟨p.exit, p.output, diagnostics e p.notes (p.failure.toList.map Failure.message), p.tree, false⟩

/-- How the program ends if it was taken down: no file was written yet. -/
def abort (e : Environment) (x : Benchmark.Collapse) (tree : FileTree) : Ending :=
  ⟨none, x.output, diagnostics e x.notes [refusedMemory x.bytes], tree, true⟩

/-- Runs the program. -/
def run (e : Environment) (words : List String) (tree : FileTree) (s : Surroundings) : Ending :=
  match CommandLine.command (e.api.getD CommandLine.Command.localApi) words with
  | .error r => refuse r tree
  | .ok c =>
    let p := Benchmark.perform c tree s
    match Benchmark.collapse? c tree s p.course with
    | some x => abort e x tree
    | none => finish e p

theorem run_tree_of_refusal {e : Environment} {words : List String} {tree : FileTree} {s : Surroundings}
    {r : Refusal} (h : CommandLine.command (e.api.getD CommandLine.Command.localApi) words = .error r) :
    (run e words tree s).tree = tree ∧ (run e words tree s).exit = some r.exitCode := by
  simp [run, h, refuse]

end Cadence.Program
