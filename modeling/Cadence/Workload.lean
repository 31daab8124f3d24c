import Cadence.Fault

/-!
# Workloads

What a run works through. A source is any state machine that yields items and says how many are left; it keeps
its promise if it yields exactly as many as it says.

* `Workload` is either of two sources: `KeyList` yields given identifiers in order, `Payloads` makes up payloads of one
  size.
-/

namespace Cadence

/-- One unit of work: an identifier to look up, or a payload to make up and add. -/
inductive Item where
  | key (text : String)
  | payload (number size : Nat)
deriving DecidableEq, Repr

/-- The identifier of an item that has one. -/
def Item.key? : Item → Option String
  | .key t => some t
  | .payload _ _ => none

/-- How many items are left. -/
inductive Remaining where
  | finite (count : Nat)
  | unbounded
deriving DecidableEq, Repr

/-- A state machine that yields items and says how many are left. -/
class Source (σ : Type) where
  next : σ → Option Item × σ
  remaining : σ → Remaining

namespace Source

variable {σ : Type} [Source σ]

/-- Whether the source says that nothing is left. -/
def isExhausted (s : σ) : Bool := remaining s == .finite 0

/-- The items of a source up to the first time it yields none, at most `fuel` of them, after those in `acc`. -/
def drainInto (acc : Array Item) (s : σ) : Nat → Array Item × σ
  | 0 => (acc, s)
  | fuel + 1 =>
    match next s with
    | (some item, s) => drainInto (acc.push item) s fuel
    | (none, s) => (acc, s)

end Source

/-- Identifiers to be yielded in order, and how many have been. -/
structure KeyList where
  keys : Array String
  cursor : Nat
deriving DecidableEq

/-- Yields the given identifiers in order. -/
def KeyList.ofArray (keys : Array String) : KeyList := ⟨keys, 0⟩

instance : Source KeyList where
  next l :=
    match l.keys[l.cursor]? with
    | some k => (some (.key k), { l with cursor := l.cursor + 1 })
    | none => (none, l)
  remaining l := .finite (l.keys.size - l.cursor)

/-- Payloads of one size, numbered from zero, up to a count or for ever. -/
structure Payloads where
  size : Nat
  count : Option Nat
  issued : Nat
deriving DecidableEq

/-- Payloads of a positive size. -/
def Payloads.create (size : Nat) (count : Option Nat) : Except Fault Payloads :=
  if size = 0 then .error .invalidPayloadSize else .ok ⟨size, count, 0⟩

/-- Whether the count is used up. -/
def Payloads.isSpent (p : Payloads) : Bool :=
  match p.count with
  | some n => n ≤ p.issued
  | none => false

instance : Source Payloads where
  next p := if p.isSpent then (none, p) else (some (.payload p.issued p.size), { p with issued := p.issued + 1 })
  remaining p :=
    match p.count with
    | some n => .finite (n - p.issued)
    | none => .unbounded

/-- Either of the sources. -/
inductive Workload where
  | keys (list : KeyList)
  | payloads (payloads : Payloads)
deriving DecidableEq

namespace Workload

instance : Source Workload where
  next
    | keys l => ((Source.next l).1, keys (Source.next l).2)
    | payloads p => ((Source.next p).1, payloads (Source.next p).2)
  remaining
    | keys l => Source.remaining l
    | payloads p => Source.remaining p

/-- How many items the source yields at most, if there is an end. -/
def supply : Workload → Option Nat
  | keys l => some l.keys.size
  | payloads p => p.count

/-- The length of a list of identifiers. -/
def length? : Workload → Option Nat
  | keys l => some l.keys.size
  | _ => none

end Workload
end Cadence
