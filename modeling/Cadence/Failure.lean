import Cadence.Fault

/-!
# Failures of a command

A command that fails tells why in a chain of texts, the outermost context first, and by its exit code.

* `Failure.ofFault_invalid_iff`: exactly the faults of the configuration count as invalid input.
-/

namespace Cadence

/-- The exit codes of the program. -/
inductive ExitCode where
  | success
  | invalidInput
  | runtimeError
deriving DecidableEq, Repr

/-- The number of an exit code. -/
def ExitCode.number : ExitCode → Nat
  | .success => 0
  | .invalidInput => 30
  | .runtimeError => 40

/-- A failed command: whose fault it was, and the chain of texts, outermost first. -/
structure Failure where
  invalidInput : Bool
  chain : List String
deriving DecidableEq, Repr

namespace Failure

/-- The exit code that the failure asks for. -/
def exitCode (f : Failure) : ExitCode := if f.invalidInput then .invalidInput else .runtimeError

/-- All texts of the chain. -/
def message (f : Failure) : String := String.intercalate ": " f.chain

/-- The outermost text. -/
def headline (f : Failure) : String := f.chain.headD ""

/-- The failure inside a further context. -/
def within (f : Failure) (context : String) : Failure := { f with chain := context :: f.chain }

/-- The failure that a fault of a run makes. -/
def ofFault (fault : Fault) : Failure := ⟨fault.isConfig, fault.causes⟩

theorem ofFault_invalid_iff (fault : Fault) :
    (ofFault fault).exitCode = .invalidInput ↔ fault.isConfig = true := by
  unfold ofFault exitCode
  cases fault.isConfig <;> simp

end Failure
end Cadence
