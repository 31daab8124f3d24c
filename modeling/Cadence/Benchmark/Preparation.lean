import Cadence.Benchmark.Surroundings
import Cadence.CommandLine.Command
import Cadence.Identifiers
import Cadence.Workload.Shuffle

/-!
# Preparation of a command

Before anything is sent, a command needs its items and the address of its operations. Lists are read before
addresses are, and payloads are checked before them.

* `prepare` tells the failure of a command that cannot begin.
* `prepare_ok_operation`: what is prepared is the operation of the command.
-/

namespace Cadence.Benchmark

open CommandLine (Command Listing)

/-- A command that can begin: its executor, its items, what it works through in words, and notes. -/
structure Prepared where
  executor : Executor
  source : Workload
  workload : String
  notes : List Log.Record

/-- The largest number of uploads; none is given by zero. -/
def uploadCount (count : Nat) : Option Nat := if count = 0 then none else some count

/-- The keys in the file of a listing. -/
def readKeys (tree : FileTree) (l : Listing) : Except Failure (List String) :=
  match Identifiers.read tree l.cids with
  | .ok keys => .ok keys
  | .error f => .error (Failure.within ⟨true, f.causes⟩ ("failed to read CID list: " ++ l.cids))

/-- Keys in the order of a listing. -/
def arrange (chance : Chance) (l : Listing) (keys : Array String) : KeyList :=
  if l.noShuffle then KeyList.ofArray keys
  else match l.seed with
    | some seed => KeyList.shuffled keys (UInt64.ofNat seed)
    | none => KeyList.shuffled keys chance.seed

/-- The order of a listing in words. -/
def orderText (l : Listing) : String := if l.noShuffle then "file order" else "shuffled"

/-- The keys of a listing in words. -/
def describeKeys (l : Listing) (count : Nat) : String :=
  toString count ++ " CIDs from " ++ l.cids ++ " (" ++ orderText l ++ ")"

/-- The note on a list without keys. -/
def emptyList (path : String) : Log.Record :=
  ⟨.warn, "CID list is empty, nothing to dispatch", [("path", .bare path)]⟩

/-- The executor of a command below a base URL. -/
def connect (idna : Url.Idna) (op : Operation) (base : String) (most : Nat) : Except Failure Executor :=
  (Executor.create idna op base most).mapError Endpoint.EndpointError.failure

/-- Prepares an operation on a list of keys. -/
def prepareKeys (idna : Url.Idna) (op : Operation) (base : String) (most : Nat) (l : Listing) (tree : FileTree)
    (chance : Chance) : Except Failure Prepared :=
  match readKeys tree l with
  | .error f => .error f
  | .ok keys =>
    (connect idna op base most).map fun e => {
      executor := e
      source := .keys (arrange chance l keys.toArray)
      workload := describeKeys l keys.length
      notes := if keys.isEmpty then [emptyList l.cids] else [] }

/-- Prepares uploads. -/
def prepareUploads (idna : Url.Idna) (base : String) (size count : Nat) : Except Failure Prepared :=
  match Payloads.create size (uploadCount count) with
  | .error f => .error (Failure.ofFault f)
  | .ok payloads =>
    (connect idna .upload base 0).map fun e => {
      executor := e
      source := .payloads payloads
      workload := Report.describePayloads size (uploadCount count)
      notes := [] }

/-- Prepares a command. -/
def prepare (idna : Url.Idna) (c : Command) (tree : FileTree) (chance : Chance) : Except Failure Prepared :=
  match c with
  | .upload common size count _ => prepareUploads idna common.api size count
  | .download common l => prepareKeys idna .download common.api 0 l tree chance
  | .findProviders common l most => prepareKeys idna .findProviders common.api most l tree chance
  | .indexerLookup _ l indexer => prepareKeys idna .indexerLookup indexer 0 l tree chance

variable {idna : Url.Idna}

theorem create_operation {op : Operation} {base : String} {most : Nat} {e : Executor}
    (h : Executor.create idna op base most = .ok e) : e.operation = op := by
  cases op <;> simp only [Executor.create] at h <;>
    · obtain ⟨u, _, rfl⟩ := CommandLine.Setting.map_eq_ok h
      rfl

theorem connect_operation {op : Operation} {base : String} {most : Nat} {e : Executor}
    (h : connect idna op base most = .ok e) : e.operation = op := by
  unfold connect Except.mapError at h
  split at h
  · cases h
  · next hc => cases h; exact create_operation hc

theorem prepareKeys_operation {op : Operation} {base : String} {most : Nat} {l : Listing} {tree : FileTree}
    {chance : Chance} {p : Prepared} (h : prepareKeys idna op base most l tree chance = .ok p) :
    p.executor.operation = op := by
  unfold prepareKeys at h
  split at h
  · cases h
  · obtain ⟨e, he, rfl⟩ := CommandLine.Setting.map_eq_ok h
    exact connect_operation he

theorem prepare_ok_operation {c : Command} {tree : FileTree} {chance : Chance} {p : Prepared}
    (h : prepare idna c tree chance = .ok p) : p.executor.operation = c.operation := by
  cases c <;> simp only [prepare] at h
  case upload =>
    unfold prepareUploads at h
    split at h
    · cases h
    · obtain ⟨e, he, rfl⟩ := CommandLine.Setting.map_eq_ok h
      exact connect_operation he
  all_goals exact prepareKeys_operation h

end Cadence.Benchmark
