import Cadence.Url.Host.Address

/-!
# Socket addresses

A numeric host and a port, divided by the last colon. An IPv6 host stands in brackets, with the number of its scope
after a percent sign if there is one.

* `SocketAddress.port?_lt`: a port has 16 bits.
* `SocketAddress.read?_port_lt`: so has the port of every address that is read.
-/

namespace Cadence.Gateway

open Url.Address (digitsIn? byte? v6?)

/-- A host in numbers. -/
inductive NumericHost where
  | v4 (bytes : List Nat)
  | v6 (pieces : List Nat) (scope : Nat)
deriving DecidableEq

/-- A host and a port. -/
structure SocketAddress where
  host : NumericHost
  port : Nat
deriving DecidableEq

namespace SocketAddress

/-- A free port of this machine. -/
def localhost : SocketAddress := ⟨.v4 [127, 0, 0, 1], 0⟩

/-- Reads a decimal number of a number of bits; zeros may stand before it. -/
def decimal? (bits : Nat) (s : List Char) : Option Nat :=
  if s.isEmpty then none else (digitsIn? 10 0 s).filter (· < Nat.pow 2 bits)

/-- Reads a port. -/
def port? (s : List Char) : Option Nat := decimal? 16 s

/-- Reads four bytes with dots between them. -/
def v4Host? (s : List Char) : Option NumericHost :=
  match (Url.Form.splitAt '.' s).mapM byte? with
  | some [a, b, c, d] => some (.v4 [a, b, c, d])
  | _ => none

/-- Reads what stands in brackets. -/
def v6Host? (s : List Char) : Option NumericHost := do
  let pieces ← v6? (s.takeWhile (· ≠ '%'))
  match s.dropWhile (· ≠ '%') with
  | [] => some (.v6 pieces 0)
  | _ :: scope => (decimal? 32 scope).map (.v6 pieces)

/-- Reads what stands before the last colon. -/
def host? (s : List Char) : Option NumericHost :=
  match s with
  | '[' :: r => if r.getLast? = some ']' then v6Host? r.dropLast else none
  | s => v4Host? s

/-- Reads a socket address. -/
def read? (text : String) : Option SocketAddress :=
  let reversed := text.toList.reverse
  match reversed.dropWhile (· ≠ ':') with
  | [] => none
  | _ :: host => do
    let h ← host? host.reverse
    let p ← port? (reversed.takeWhile (· ≠ ':')).reverse
    some ⟨h, p⟩

theorem decimal?_lt {bits n : Nat} {s : List Char} (h : decimal? bits s = some n) : n < Nat.pow 2 bits := by
  unfold decimal? at h
  split at h
  · cases h
  · simpa using (Option.filter_eq_some_iff.1 h).2

theorem port?_lt {s : List Char} {n : Nat} (h : port? s = some n) : n < 65536 := decimal?_lt h

theorem read?_port_lt {s : String} {a : SocketAddress} (h : read? s = some a) : a.port < 65536 := by
  simp only [read?] at h
  split at h
  · cases h
  · simp only [Option.bind_eq_bind, Option.bind_eq_some_iff, Option.some.injEq] at h
    obtain ⟨_, _, p, hp, rfl⟩ := h
    exact port?_lt hp

end SocketAddress
end Cadence.Gateway
