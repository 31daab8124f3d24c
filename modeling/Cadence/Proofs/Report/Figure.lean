import Cadence.Report.Summary
import Mathlib.Tactic.Lemma

/-!
# Figures that are shown

A latency that is a finite number is shown as one, without the slash of what is not available (`slash_not_mem_latency`).
The line of latencies says that there are none exactly if there is no average (`latencyLine_eq_iff`).
-/

namespace Cadence

namespace Decimal

lemma slash_not_mem_toString (n : Nat) : '/' ∉ (toString n).toList := by
  intro h
  rw [Nat.toString_eq_ofList_toDigits, String.toList_ofList] at h
  exact absurd (Nat.isDigit_of_mem_toDigits (Nat.succ_pos 9) (Nat.le_refl 10) h) (by decide)

lemma slash_not_mem_pointed (places n : Nat) : '/' ∉ (pointed places n).toList := by
  unfold pointed padded
  split
  · exact slash_not_mem_toString n
  · simp only [String.toList_append, String.toList_ofList, List.mem_append, List.mem_replicate, not_or]
    exact ⟨⟨slash_not_mem_toString _, by decide⟩, by simp, slash_not_mem_toString _⟩

lemma slash_not_mem_fixed (places : Nat) (x : Float) : '/' ∉ (fixed places x).toList := by
  unfold fixed
  split
  · next b _ =>
    unfold Binary.fixed
    rw [String.toList_append, List.mem_append, not_or]
    exact ⟨by split <;> decide, slash_not_mem_pointed _ _⟩
  · split
    · decide
    · split <;> decide

end Decimal

namespace Report

/-- What is a finite number is shown without a slash. -/
lemma slash_not_mem_latency {ms : Float} (h : ms.isFinite = true) : '/' ∉ (latency (some ms)).toList := by
  rw [latency, h]
  simp only [Bool.not_true, Bool.false_eq_true, if_false]
  split
  all_goals
    rw [String.toList_append, List.mem_append, not_or]
    exact ⟨Decimal.slash_not_mem_fixed _ _, by decide⟩

variable {s : Snapshot}

/-- The line says that there are no latencies exactly if there is no average. -/
lemma latencyLine_eq_iff : latencyLine s = "  latency: n/a\n" ↔ s.average = none := by
  unfold latencyLine
  cases s.average with
  | none => exact iff_of_true rfl rfl
  | some ms =>
    refine iff_of_false (fun h => ?_) nofun
    -- each figure follows an equals sign, of which there is none in the line that says so
    have hequals : '=' ∈ "  latency: n/a\n".toList := by
      rw [← h, if_pos Option.isSome_some]
      simp only [String.toList_append, List.mem_append]
      iterate 10 left
      decide
    exact absurd hequals (by decide)

/-- Nothing in the line is shown as not available if all figures are finite. -/
lemma slash_not_mem_latencyLine
    (h : ∀ figure ∈ [s.average, s.p50, s.p90, s.p99, s.maximum], ∃ ms, figure = some ms ∧ ms.isFinite = true) :
    '/' ∉ (latencyLine s).toList := by
  have hfigure : ∀ figure ∈ [s.average, s.p50, s.p90, s.p99, s.maximum], '/' ∉ (latency figure).toList := by
    intro figure hmem
    obtain ⟨ms, rfl, hfinite⟩ := h figure hmem
    exact slash_not_mem_latency hfinite
  obtain ⟨ms, hsome, _⟩ := h s.average List.mem_cons_self
  simp only [List.forall_mem_cons] at hfigure
  obtain ⟨havg, h50, h90, h99, hmax, _⟩ := hfigure
  unfold latencyLine
  rw [if_pos (by rw [hsome]; rfl)]
  simp only [String.toList_append, List.mem_append, not_or]
  exact ⟨⟨⟨⟨⟨⟨⟨⟨⟨⟨by decide, havg⟩, by decide⟩, h50⟩, by decide⟩, h90⟩, by decide⟩, h99⟩, by decide⟩, hmax⟩, by decide⟩

end Report
end Cadence
