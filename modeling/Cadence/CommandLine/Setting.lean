import Cadence.CommandLine.Refusal
import Cadence.Fault
import Cadence.Report.Header

/-!
# Settings

A setting is a parameter with a value that was read and accepted.

* `Setting.read_param`: what is read for a parameter is a setting of that parameter.
* `Setting.read_rate_le`: an accepted rate is one that a run accepts.
-/

namespace Cadence.CommandLine

/-- A parameter with its value. -/
inductive Setting where
  | api (url : String)
  | rate (perTick : Nat)
  | tick (interval : Duration)
  | reportInterval (interval : Duration)
  | timeout (limit : Duration)
  | duration (limit : Duration)
  | output (format : Report.Format)
  | cids (path : String)
  | noShuffle
  | seed (value : Nat)
  | size (bytes : Nat)
  | count (uploads : Nat)
  | cidsOut (path : String)
  | numProviders (most : Nat)
  | indexer (url : String)
deriving DecidableEq

namespace Setting

/-- The parameter that is set. -/
def param : Setting → Param
  | api _ => .api
  | rate _ => .rate
  | tick _ => .tick
  | reportInterval _ => .reportInterval
  | timeout _ => .timeout
  | duration _ => .duration
  | output _ => .output
  | cids _ => .cids
  | noShuffle => .noShuffle
  | seed _ => .seed
  | size _ => .size
  | count _ => .count
  | cidsOut _ => .cidsOut
  | numProviders _ => .numProviders
  | indexer _ => .indexer

/-- Reads a number of 64 bits. -/
def number (text : String) : Except ValueFault Nat :=
  (Number.unsigned text.toList).mapError .number

/-- Reads a rate, which is at least one and at most the largest rate of a run. -/
def rateValue (text : String) : Except ValueFault Nat :=
  match number text with
  | .error f => .error f
  | .ok n => if 1 ≤ n ∧ n ≤ Fault.maxRate then .ok n else .error (.outOfRange n 1 Fault.maxRate)

/-- The largest number of providers that can be asked for. -/
def mostProviders : Nat := 4294967295

/-- Reads a number of providers. -/
def providersValue (text : String) : Except ValueFault Nat :=
  match Number.signed text.toList with
  | .error f => .error (.number f)
  | .ok n => if 1 ≤ n ∧ n ≤ mostProviders then .ok n.toNat else .error (.outOfRange n 1 mostProviders)

/-- Reads a duration. -/
def durationValue (text : String) : Except ValueFault Duration :=
  (Duration.parse text).mapError .duration

/-- Reads a path, which may not be empty. -/
def pathValue (text : String) : Except ValueFault String :=
  if text.isEmpty then .error .missing else .ok text

/-- Reads the name of an output format. -/
def formatValue (text : String) : Except ValueFault Report.Format :=
  if text.isEmpty then .error .missing
  else if text = "human-readable" then .ok .human
  else if text = "json" then .ok .json
  else .error .noSuchChoice

/-- Reads the value of a parameter. A switch is set whatever is said. -/
def read (p : Param) (text : String) : Except ValueFault Setting :=
  match p with
  | .api => .ok (api text)
  | .rate => (rateValue text).map rate
  | .tick => (durationValue text).map tick
  | .reportInterval => (durationValue text).map reportInterval
  | .timeout => (durationValue text).map timeout
  | .duration => (durationValue text).map duration
  | .output => (formatValue text).map output
  | .cids => (pathValue text).map cids
  | .noShuffle => .ok noShuffle
  | .seed => (number text).map seed
  | .size => ((ByteSize.parse text).mapError ValueFault.size).map size
  | .count => (number text).map count
  | .cidsOut => (pathValue text).map cidsOut
  | .numProviders => (providersValue text).map numProviders
  | .indexer => .ok (indexer text)

theorem map_eq_ok {α β ε : Type} {f : α → β} {x : Except ε α} {b : β} (h : x.map f = .ok b) :
    ∃ a, x = .ok a ∧ f a = b := by
  cases x with
  | error e => cases h
  | ok a => exact ⟨a, rfl, by injection h⟩

theorem read_param {p : Param} {text : String} {s : Setting} (h : read p text = .ok s) :
    s.param = p := by
  cases p <;> simp only [read] at h
  case api | indexer | noShuffle => cases h; rfl
  all_goals
    obtain ⟨a, _, rfl⟩ := map_eq_ok h
    rfl

theorem read_rate_le {text : String} {n : Nat} (h : read .rate text = .ok (.rate n)) :
    0 < n ∧ n ≤ Fault.maxRate := by
  obtain ⟨a, ha, hn⟩ := map_eq_ok h
  cases hn
  unfold rateValue at ha
  split at ha
  · cases ha
  · split at ha
    · next hr => cases ha; omega
    · cases ha

end Setting
end Cadence.CommandLine
