import Cadence.Run.Process
import Mathlib.Data.List.Induction

/-!
# Moves that are carried out

Whether a process carries out a list of moves, and where that leads, can be computed (`System.follow?_eq_some_iff`).
-/

namespace Cadence.Run.System

variable {σ : Type}

instance (s : System σ) : Decidable s.Fits := inferInstanceAs (Decidable (s.outstanding ≤ 2 * handles))

variable [Source σ]

/-- The system after a move, if no timer breaks down, nothing fails, and the process has room for it. -/
def advance? (s : System σ) (move : Nat × Move) : Option (System σ) :=
  if s.breaks move.1 move.2 then none else (s.step move.1 move.2).toOption.filter fun u => u.Fits

/-- The system after a list of moves, if no timer breaks down, nothing fails, and the process always has room. -/
def follow? (s : System σ) (moves : List (Nat × Move)) : Option (System σ) :=
  if s.Fits then moves.foldlM advance? s else none

lemma advance?_eq_some_iff {s u : System σ} {now m} :
    s.advance? (now, m) = some u ↔ s.breaks now m = false ∧ s.step now m = .ok u ∧ u.Fits := by
  unfold advance?
  cases s.breaks now m with
  | true => simp
  | false =>
    cases s.step now m with
    | error f => simp [Except.toOption]
    | ok t => simp [Except.toOption, Option.filter_eq_some_iff]

lemma follow?_nil {s t : System σ} : s.follow? [] = some t ↔ s = t ∧ s.Fits := by
  by_cases h : s.Fits <;> simp [follow?, h]

lemma follow?_snoc {s u : System σ} {moves move} :
    s.follow? (moves ++ [move]) = some u ↔ ∃ t, s.follow? moves = some t ∧ t.advance? move = some u := by
  by_cases h : s.Fits <;> simp [follow?, h, List.foldlM_append, Option.bind_eq_some_iff]

theorem follow?_eq_some_iff {s t : System σ} {moves : List (Nat × Move)} :
    s.follow? moves = some t ↔ s.Endures moves t := by
  constructor
  · intro h
    induction moves using List.reverseRecOn generalizing t with
    | nil =>
      obtain ⟨rfl, hfits⟩ := follow?_nil.mp h
      exact .nil hfits
    | append_singleton moves move ih =>
      obtain ⟨u, hu, hlast⟩ := follow?_snoc.mp h
      obtain ⟨hwhole, hstep, hroom⟩ := advance?_eq_some_iff.mp hlast
      exact .snoc (ih hu) hwhole hstep hroom
  · intro h
    induction h with
    | nil hfits => exact follow?_nil.mpr ⟨rfl, hfits⟩
    | snoc _ hwhole hstep hroom ih =>
      exact follow?_snoc.mpr ⟨_, ih, advance?_eq_some_iff.mpr ⟨hwhole, hstep, hroom⟩⟩

end Cadence.Run.System
