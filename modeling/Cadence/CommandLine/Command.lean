import Cadence.CommandLine.Setting
import Cadence.Config

/-!
# Commands

What a command line asks for: an operation with all of its parameters.

* `Command.operation_assign`: settings never change the operation of a command.
-/

namespace Cadence.CommandLine

/-- The parameters that all operations share. -/
structure Common where
  api : String
  rate : Nat
  tick : Duration
  reportInterval : Duration
  timeout : Duration
  duration : Option Duration
  output : Report.Format
deriving DecidableEq

/-- Which keys to use, and in which order. -/
structure Listing where
  cids : String
  noShuffle : Bool
  seed : Option Nat
deriving DecidableEq

/-- An operation with its parameters. -/
inductive Command where
  | upload (common : Common) (size count : Nat) (cidsOut : String)
  | download (common : Common) (listing : Listing)
  | findProviders (common : Common) (listing : Listing) (numProviders : Nat)
  | indexerLookup (common : Common) (listing : Listing) (indexer : String)
deriving DecidableEq

/-- The pacing that the parameters ask for. -/
def Common.config (c : Common) : Config where
  rate := c.rate
  tick := c.tick
  reportInterval := c.reportInterval
  timeout := c.timeout
  maxDuration := c.duration

/-- The shared parameters when none is given. -/
def Common.default (api : String) : Common where
  api := api
  rate := 1
  tick := Duration.ofSeconds 1
  reportInterval := Duration.ofSeconds 1
  timeout := Duration.ofSeconds 10
  duration := none
  output := .human

/-- The keys in the default file, in an order of chance. -/
def Listing.default : Listing := ⟨"cids.txt", false, none⟩

/-- The shared parameters with one of them set. -/
def Common.assign (c : Common) : Setting → Common
  | .api url => { c with api := url }
  | .rate n => { c with rate := n }
  | .tick d => { c with tick := d }
  | .reportInterval d => { c with reportInterval := d }
  | .timeout d => { c with timeout := d }
  | .duration d => { c with duration := some d }
  | .output f => { c with output := f }
  | _ => c

/-- The choice of keys with one of its parameters set. -/
def Listing.assign (l : Listing) : Setting → Listing
  | .cids path => { l with cids := path }
  | .noShuffle => { l with noShuffle := true }
  | .seed n => { l with seed := some n }
  | _ => l

namespace Command

/-- The address of the node when no other is known. -/
def localApi : String := "http://127.0.0.1:5001"

/-- An operation with its default parameters and the given address of the node. -/
def default (op : Operation) (api : String) : Command :=
  match op with
  | .upload => upload (.default api) 262144 0 "cids.txt"
  | .download => download (.default api) .default
  | .findProviders => findProviders (.default api) .default 20
  | .indexerLookup => indexerLookup (.default api) .default "https://cid.contact"

/-- A command with one of its parameters set. -/
def assign : Command → Setting → Command
  | upload c _ count path, .size n => upload c n count path
  | upload c size _ path, .count n => upload c size n path
  | upload c size count _, .cidsOut path => upload c size count path
  | upload c size count path, s => upload (c.assign s) size count path
  | download c l, s => download (c.assign s) (l.assign s)
  | findProviders c l _, .numProviders n => findProviders c l n
  | findProviders c l n, s => findProviders (c.assign s) (l.assign s) n
  | indexerLookup c l _, .indexer url => indexerLookup c l url
  | indexerLookup c l url, s => indexerLookup (c.assign s) (l.assign s) url

/-- The operation of a command. -/
def operation : Command → Operation
  | upload .. => .upload
  | download .. => .download
  | findProviders .. => .findProviders
  | indexerLookup .. => .indexerLookup

/-- The shared parameters of a command. -/
def common : Command → Common
  | upload c _ _ _ => c
  | download c _ => c
  | findProviders c _ _ => c
  | indexerLookup c _ _ => c

/-- The address that the operations of a command are sent to. -/
def target : Command → String
  | indexerLookup _ _ url => url
  | c => c.common.api

theorem operation_assign (c : Command) (s : Setting) : (c.assign s).operation = c.operation := by
  cases c <;> cases s <;> rfl

theorem operation_default (op : Operation) (api : String) : (default op api).operation = op := by
  cases op <;> rfl

end Command
end Cadence.CommandLine
