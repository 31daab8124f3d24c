import Cadence.Operation

/-!
# Parameters of the command line

Each operation takes the parameters that all operations share and some of its own. A parameter is given as
`--name value`, `--name=value` or, when it is a switch, as `--name`.

* `Param.ofName?_name`: the name of a parameter that an operation takes leads back to the parameter.
-/

namespace Cadence.CommandLine

/-- A parameter of an operation. -/
inductive Param where
  | api
  | rate
  | tick
  | reportInterval
  | timeout
  | duration
  | output
  | cids
  | noShuffle
  | seed
  | size
  | count
  | cidsOut
  | numProviders
  | indexer
deriving DecidableEq, Repr

namespace Param

/-- The name of a parameter, without the hyphens in front. -/
def name : Param → String
  | api => "api"
  | rate => "rate"
  | tick => "tick"
  | reportInterval => "report-interval"
  | timeout => "timeout"
  | duration => "duration"
  | output => "output"
  | cids => "cids"
  | noShuffle => "no-shuffle"
  | seed => "seed"
  | size => "size"
  | count => "count"
  | cidsOut => "cids-out"
  | numProviders => "num-providers"
  | indexer => "indexer"

/-- Whether the parameter is a switch, which takes no value. -/
def isSwitch (p : Param) : Bool := p == noShuffle

/-- What stands for the value in messages: the name in capitals. -/
def valueName (p : Param) : String :=
  String.ofList (p.name.toList.map fun c => if c = '-' then '_' else c.toUpper)

/-- The parameter as messages write it. -/
def display (p : Param) : String :=
  if p.isSwitch then "--" ++ p.name else "--" ++ p.name ++ " <" ++ p.valueName ++ ">"

/-- The parameters that every operation takes. -/
def shared : List Param := [api, rate, tick, reportInterval, timeout, duration, output]

/-- The parameters that choose and order a list of keys. -/
def listing : List Param := [cids, noShuffle, seed]

/-- The parameters of an operation. -/
def ofOperation : Operation → List Param
  | .upload => shared ++ [size, count, cidsOut]
  | .download => shared ++ listing
  | .findProviders => shared ++ listing ++ [numProviders]
  | .indexerLookup => shared ++ listing ++ [indexer]

/-- The parameter of an operation that has the given name. -/
def ofName? (op : Operation) (text : String) : Option Param :=
  (ofOperation op).find? fun p => p.name == text

theorem ofName?_name (op : Operation) (p : Param) (h : p ∈ ofOperation op) :
    ofName? op p.name = some p := by
  revert h
  cases op <;> cases p <;> decide

end Param
end Cadence.CommandLine
