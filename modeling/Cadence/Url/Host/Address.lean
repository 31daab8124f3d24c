import Cadence.Text.Hex
import Cadence.Url.Form

/-!
# Addresses in numbers

IPv4 addresses in one to four numbers, decimal, octal or hexadecimal, of which the last fills the bytes that are
left; and IPv6 addresses in eight pieces, of which one run of zeros may be left out.

* `Address.number?`: an octal number has a leading zero, a hexadecimal one a leading `0x`.
* `Address.v4?_lt`: an address has 32 bits.
-/

namespace Cadence.Url.Address

open Text

/-- The value of digits of a base, read after `value`, if all are digits of the base. -/
def digitsIn? (base : Nat) : Nat → List Char → Option Nat
  | value, [] => some value
  | value, c :: r =>
    match Hex.value? c with
    | some d => if d < base then digitsIn? base (value * base + d) r else none
    | none => none

/-- A number of an address: decimal, or octal or hexadecimal by how it begins. -/
def number? : List Char → Option Nat
  | [] => none
  | '0' :: 'x' :: r => digitsIn? 16 0 r
  | '0' :: 'X' :: r => digitsIn? 16 0 r
  | '0' :: c :: r => digitsIn? 8 0 (c :: r)
  | s => digitsIn? 10 0 s

/-- The parts of a name between dots; a dot at the end begins no part. -/
def parts (name : List Char) : List (List Char) :=
  let ps := Form.splitAt '.' name
  if ps.getLast? = some [] && 1 < ps.length then ps.dropLast else ps

/-- Whether a name has to be an address: its last part is a number or at least looks like a decimal one. -/
def endsInNumber (name : List Char) : Bool :=
  match (parts name).getLast? with
  | some p => (!p.isEmpty && p.all Char.isDigit) || (number? p).isSome
  | none => false

/-- The value of numbers of which all but the last are bytes and the last fills `width` bits. -/
def combine : Nat → List Nat → Option Nat
  | _, [] => none
  | width, [n] => if n < Nat.pow 2 width then some n else none
  | width, n :: m :: r =>
    if 256 ≤ n then none else (combine (width - 8) (m :: r)).map (n * Nat.pow 2 (width - 8) + ·)

/-- Reads an IPv4 address of at most four parts. -/
def v4? (name : List Char) : Option Nat :=
  let ps := parts name
  if 4 < ps.length then none
  else match ps.mapM number? with
    | some ns => combine 32 ns
    | none => none

/-- The text of an IPv4 address. -/
def v4Text (n : Nat) : List Char :=
  (toString (n / 16777216 % 256) ++ "." ++ toString (n / 65536 % 256) ++ "." ++ toString (n / 256 % 256)
    ++ "." ++ toString (n % 256)).toList

/-- One to four hexadecimal digits: their value and what follows. -/
def piece (s : List Char) : Option (Nat × List Char) :=
  let ds := (s.takeWhile fun c => (Hex.value? c).isSome).take 4
  if ds.isEmpty then none else (digitsIn? 16 0 ds).map fun n => (n, s.drop ds.length)

/-- Reads a byte in decimal, without a zero in front of further digits. -/
def byte? (s : List Char) : Option Nat :=
  match s with
  | [] => none
  | ['0'] => some 0
  | '0' :: _ => none
  | _ => (digitsIn? 10 0 s).filter (· < 256)

/-- The two last pieces of an IPv6 address that ends like an IPv4 address in four bytes. -/
def dotted? (s : List Char) : Option (List Nat) :=
  match (Form.splitAt '.' s).mapM byte? with
  | some [a, b, c, d] => some [a * 256 + b, c * 256 + d]
  | _ => none

/-- Reads pieces up to the end: those before the gap and, if there is a gap, those after it. -/
def pieces? : Nat → List Nat → Option (List Nat) → List Char → Option (List Nat × Option (List Nat))
  | 0, _, _, _ => none
  | fuel + 1, before, after, s =>
    let add (ps : List Nat) : List Nat × Option (List Nat) :=
      match after with
      | none => (before ++ ps, none)
      | some a => (before, some (a ++ ps))
    match s with
    | [] => some (before, after)
    | ':' :: r =>
      match after with
      | none => pieces? fuel before (some []) r
      | some _ => none
    | s =>
      if (s.dropWhile Char.isDigit).head? = some '.' then
        (dotted? s).map add
      else match piece s with
        | none => none
        | some (n, []) => some (add [n])
        | some (n, ':' :: r) =>
          if r.isEmpty then none else pieces? fuel (add [n]).1 (add [n]).2 r
        | some _ => none

/-- The eight pieces of an address from those before and after a gap, which stands for at least one piece. -/
def fill (before : List Nat) : Option (List Nat) → Option (List Nat)
  | none => if before.length = 8 then some before else none
  | some after =>
    if before.length + after.length < 8 then
      some (before ++ List.replicate (8 - before.length - after.length) 0 ++ after)
    else none

/-- Reads an IPv6 address. -/
def v6? (s : List Char) : Option (List Nat) :=
  let read (s : List Char) := (pieces? (s.length + 1) [] none s).bind fun p => fill p.1 p.2
  match s with
  | ':' :: ':' :: r => (pieces? (r.length + 1) [] (some []) r).bind fun p => fill p.1 p.2
  | ':' :: _ => none
  | [_] => none
  | s => read s

/-- The lengths of the runs of zeros that start at each piece. -/
def zeroRuns : List Nat → List Nat
  | [] => []
  | n :: r => if n = 0 then ((zeroRuns r).headD 0 + 1) :: zeroRuns r else 0 :: zeroRuns r

/-- Pieces in hexadecimal with colons between them. -/
def joinPieces : List Nat → List Char
  | [] => []
  | [n] => Nat.toDigits 16 n
  | n :: m :: r => Nat.toDigits 16 n ++ [':'] ++ joinPieces (m :: r)

/-- The text of an IPv6 address: the first longest run of at least two zeros is left out. -/
def v6Text (ps : List Nat) : List Char :=
  let runs := zeroRuns ps
  let longest := runs.foldl max 0
  if longest < 2 then joinPieces ps
  else
    let start := (runs.takeWhile (· ≠ longest)).length
    joinPieces (ps.take start) ++ [':', ':'] ++ joinPieces (ps.drop (start + longest))

theorem combine_lt {width n : Nat} {ns : List Nat} (h : combine width ns = some n)
    (hw : 8 * ns.length ≤ width) : n < Nat.pow 2 width := by
  induction ns generalizing width n with
  | nil => cases h
  | cons a r ih =>
    cases r with
    | nil =>
      simp only [combine] at h
      split at h
      · cases h; assumption
      · cases h
    | cons b r =>
      simp only [combine] at h
      split at h
      · cases h
      · obtain ⟨m, hm, rfl⟩ := Option.map_eq_some_iff.1 h
        simp only [List.length_cons] at hw
        have hlt := ih hm (by simp only [List.length_cons]; omega)
        have hp : Nat.pow 2 width = 256 * Nat.pow 2 (width - 8) := by
          obtain ⟨w, rfl⟩ : ∃ w, width = w + 8 := ⟨width - 8, by omega⟩
          rw [Nat.add_sub_cancel, Nat.mul_comm]
          exact Nat.pow_add 2 w 8
        have ha : a + 1 ≤ 256 := by omega
        calc a * Nat.pow 2 (width - 8) + m < a * Nat.pow 2 (width - 8) + Nat.pow 2 (width - 8) := by omega
          _ = (a + 1) * Nat.pow 2 (width - 8) := (Nat.succ_mul _ _).symm
          _ ≤ 256 * Nat.pow 2 (width - 8) := Nat.mul_le_mul_right _ ha
          _ = Nat.pow 2 width := hp.symm

theorem mapM_length {α β : Type} {f : α → Option β} {xs : List α} {ys : List β}
    (h : xs.mapM f = some ys) : ys.length = xs.length := by
  induction xs generalizing ys with
  | nil => simp at h; subst h; rfl
  | cons x r ih =>
    simp only [List.mapM_cons, Option.bind_eq_bind, Option.bind_eq_some_iff, Option.pure_def,
      Option.some.injEq] at h
    obtain ⟨y, _, zs, hz, rfl⟩ := h
    simp [ih hz]

theorem v4?_lt {name : List Char} {n : Nat} (h : v4? name = some n) : n < 4294967296 := by
  simp only [v4?] at h
  split at h
  · cases h
  · split at h
    · next hm => exact combine_lt h (by have := mapM_length hm; omega)
    · cases h

end Cadence.Url.Address
