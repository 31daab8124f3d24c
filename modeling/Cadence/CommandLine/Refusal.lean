import Cadence.ByteSize
import Cadence.CommandLine.Number
import Cadence.CommandLine.Param
import Cadence.Duration.Notation
import Cadence.Failure

/-!
# Refusals of a command line

Why the words of a command line name no command. Two refusals are no mistakes: help and the version were asked
for.

* `Refusal.message?` is the sentence that is told.
* `Refusal.exitCode_success_iff`: only help and the version end with success.
-/

namespace Cadence.CommandLine

/-- Why a value is not accepted. -/
inductive ValueFault where
  | number (fault : Number.NumberFault)
  | outOfRange (value : Int) (low high : Nat)
  | duration (fault : DurationError)
  | size (fault : ByteSize.SizeError)
  | noSuchChoice
  | missing
deriving DecidableEq

/-- The reason that a message adds, if the fault has one. -/
def ValueFault.reason? : ValueFault → Option String
  | .number f => some f.message
  | .outOfRange n low high =>
    some (toString n ++ " is not in " ++ toString low ++ "..=" ++ toString high)
  | .duration f => some f.message
  | .size f => some f.message
  | .noSuchChoice => none
  | .missing => none

/-- Why the words of a command line name no command. -/
inductive Refusal where
  | help
  | version
  | nothingAsked
  | unknownArgument (word : String)
  | unknownCommand (word : String)
  | badValue (param : Param) (value : String) (fault : ValueFault)
  | repeated (param : Param)
  | conflict (first second : Param)
  | unneededValue (name value : String)
deriving DecidableEq

namespace Refusal

/-- The sentence that tells a mistake. -/
def message? : Refusal → Option String
  | help => none
  | version => none
  | nothingAsked => none
  | unknownArgument w => some ("unexpected argument '" ++ w ++ "' found")
  | unknownCommand w => some ("unrecognized subcommand '" ++ w ++ "'")
  | badValue p _ .missing =>
    some ("a value is required for '" ++ p.display ++ "' but none was supplied")
  | badValue p v f =>
    let reason := match f.reason? with
      | some r => ": " ++ r
      | none => ""
    some ("invalid value '" ++ v ++ "' for '" ++ p.display ++ "'" ++ reason)
  | repeated p => some ("the argument '" ++ p.display ++ "' cannot be used multiple times")
  | conflict p q => some ("the argument '" ++ p.display ++ "' cannot be used with '" ++ q.display ++ "'")
  | unneededValue n v =>
    some ("unexpected value '" ++ v ++ "' for '--" ++ n ++ "' found; no more were expected")

/-- The exit code after a refusal. -/
def exitCode : Refusal → ExitCode
  | help => .success
  | version => .success
  | _ => .invalidInput

theorem exitCode_success_iff (r : Refusal) : r.exitCode = .success ↔ r = help ∨ r = version := by
  cases r <;> simp [exitCode]

end Refusal
end Cadence.CommandLine
