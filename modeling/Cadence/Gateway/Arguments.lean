import Cadence.CommandLine.Number
import Cadence.Duration
import Cadence.Gateway.SocketAddress

/-!
# Arguments of the gateway

Where the gateway listens and how long it waits before each answer. Arguments are read in order, the first mistake
decides, and a later value takes the place of an earlier one.

* `Arguments.read_nil`: without arguments the gateway listens on a free local port and does not wait.
* `Arguments.read_unknown`: a first word that is no option is told back.
-/

namespace Cadence.Gateway

/-- What the gateway is asked to be. -/
structure Arguments where
  bind : SocketAddress
  delay : Duration

/-- Why words are no arguments of the gateway. -/
inductive ArgumentFault where
  | addressMissing
  | addressMalformed
  | delayMissing
  | delayMalformed (fault : CommandLine.Number.NumberFault)
  | unknown (word : String)
deriving DecidableEq

/-- The wording of a fault. -/
def ArgumentFault.message : ArgumentFault → String
  | .addressMissing => "--bind requires an address, e.g. 127.0.0.1:0"
  | .addressMalformed => "invalid socket address syntax"
  | .delayMissing => "--delay-ms requires a number"
  | .delayMalformed f => f.message
  | .unknown word => "unknown argument: " ++ word

/-- What words ask for: help, or a gateway. -/
inductive Demand where
  | help
  | gateway (arguments : Arguments)

namespace Arguments

/-- A free local port and no waiting. -/
def default : Arguments := ⟨.localhost, Duration.zero⟩

/-- Reads words in addition to what was read before them. -/
def readAfter (a : Arguments) : List String → Except ArgumentFault Demand
  | [] => .ok (.gateway a)
  | "--bind" :: [] => .error .addressMissing
  | "--bind" :: word :: rest =>
    match SocketAddress.read? word with
    | some address => readAfter { a with bind := address } rest
    | none => .error .addressMalformed
  | "--delay-ms" :: [] => .error .delayMissing
  | "--delay-ms" :: word :: rest =>
    match CommandLine.Number.unsigned word.toList with
    | .ok n => readAfter { a with delay := Duration.ofMillis n } rest
    | .error f => .error (.delayMalformed f)
  | word :: _ => if word = "-h" ∨ word = "--help" then .ok .help else .error (.unknown word)

/-- Reads the words of a command line. -/
def read (words : List String) : Except ArgumentFault Demand := readAfter default words

/-- The lines that explain the arguments. -/
def usage : List String :=
  ["cidbench-testserver", "", "USAGE:", "  cidbench-testserver [--bind 127.0.0.1:0] [--delay-ms 0]", "", "OUTPUT:",
    "  Prints API_URL=<url> to stdout once ready. The same URL serves the IPNI /cid/\x7bcid\x7d lookups."]

theorem read_nil : read [] = .ok (.gateway default) := rfl

theorem read_unknown {word : String} (hb : word ≠ "--bind") (hd : word ≠ "--delay-ms") (hh : word ≠ "-h")
    (hl : word ≠ "--help") (rest : List String) : read (word :: rest) = .error (.unknown word) := by
  unfold read readAfter
  split <;> simp_all

end Arguments
end Cadence.Gateway
