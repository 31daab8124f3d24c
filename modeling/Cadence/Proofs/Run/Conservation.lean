import Cadence.Proofs.Run.Ledger

/-!
# Conservation of operations

The books of a run balance at every boundary and in every report, whatever order things happen in and however the
tasks of its operations end (`run_conserves_operations`). So a run never meets a result with nothing in flight, nor
a closed channel: it can only fail on a source that breaks its contract (`Ledger.step_fault`).
-/

namespace Cadence.Run.System
open Controller

variable {σ : Type} [Source σ]

/-- As long as the ledger is kept, only a source can make a run fail. -/
lemma Ledger.step_fault {s : System σ} {now m f} (h : Ledger s) (hs : s.step now m = .error f) :
    ∃ n, f = .sourceContract n := by
  obtain ⟨_, _, source, hd⟩ := h.placed.step_fault hs
  exact ⟨_, Batch.draw_fault hd⟩

/-- At every boundary of a run that has dispatched fewer than `2 ^ 64` operations, the operations sent are those
completed, those failed and those in flight, and in flight are exactly those whose one result has not been taken
in. Every operation is in one place, and its result is the one its task brought; every report shows such a
boundary; no move makes the run fail for want of an operation in flight or of a sender; there is room for every
result that waits; and once the run has ended, every operation had its result taken in once. -/
theorem run_conserves_operations {plan : Plan} {source : σ} {listening : Bool} {started : Nat} {c : Controller σ}
    (hstart : start? plan source listening started = some c)
    {moves : List (Nat × Move)} {s : System σ} (hrun : (System.init c).Leads moves s)
    (hfew : s.controller.calls.size ≤ Count.top) :
    s.controller.tally.sent
      = s.controller.tally.completed + s.controller.tally.failed + s.controller.inFlight.active ∧
    s.controller.inFlight.active = s.outstanding ∧
    Ledger s ∧ Heard moves s ∧
    (∀ r ∈ s.controller.reports, r.sent = r.completed + r.failed + r.inFlight ∧
      ∃ before rest u, moves = before ++ rest ∧ (System.init c).Leads before u ∧ u.Leads rest s ∧
        Shows r u ∧ r.inFlight = u.outstanding) ∧
    (∀ now m f, s.step now m = .error f → f ≠ .noneInFlight ∧ ∀ n, f ≠ .channelClosed n) ∧
    (s.channel.waiting ≠ [] →
      s.controller.tally.completed + s.controller.tally.failed < s.controller.tally.sent) ∧
    (s.controller.isTerminated = true →
      (s.controller.completions.toList.map Completion.operation).Perm (List.range s.controller.calls.size)) := by
  obtain ⟨reporter, deadline, _, _, rfl⟩ := start?_inv hstart
  have h := hrun.ledger Ledger.init hfew
  refine ⟨h.balance, h.active, h, hrun.heard ⟨nofun, nofun⟩, ?_, ?_, ?_, ?_⟩
  · intro r hr
    obtain ⟨before, rest, u, he, hb, hrest, hsh⟩ := hrun.shown rfl r hr
    have hu := hb.ledger Ledger.init (Nat.le_trans hrest.calls_le hfew)
    refine ⟨?_, before, rest, u, he, hb, hrest, hsh, hsh.inFlight.trans hu.active⟩
    rw [hsh.sent, hsh.completed, hsh.failed, hsh.inFlight]
    exact hu.balance
  · intro now m f hs
    obtain ⟨n, rfl⟩ := h.step_fault hs
    exact ⟨nofun, fun _ => nofun⟩
  · intro hw
    have hb := h.balance
    have ha := h.active
    have hp : 0 < s.channel.waiting.length := List.length_pos_iff.mpr hw
    rw [outstanding] at ha
    omega
  · intro ht
    exact h.placed.completions_of_terminated (hrun.orderly Orderly.fresh) ht

/-- The books of a run in which one operation breaks down after a report and is heard of. -/
theorem breakdown_is_conserved :
    ∃ (c : Controller KeyList) (s : System KeyList),
      start? Plan.default (KeyList.ofArray #["a"]) true 0 = some c ∧
      (System.init c).Leads
        [(0, .report), (0, .tick), (5, .finish 0 (.brokeDown Duration.zero)), (7, .receive)] s ∧
      s.controller.calls.size ≤ Count.top ∧
      s.controller.tally.sent = 1 ∧ s.controller.tally.failed = 1 ∧ s.controller.isTerminated = true ∧
      (s.controller.completions.toList.map Completion.operation).Perm (List.range s.controller.calls.size) := by
  obtain ⟨c, hstart, s, hleads, hcalls, hsent, hfailed, ht⟩ : ∃ c : Controller KeyList,
      start? Plan.default (KeyList.ofArray #["a"]) true 0 = some c ∧ ∃ s, (System.init c).Leads
      ([] ++ [(0, .report)] ++ [(0, .tick)] ++ [(5, .finish 0 (.brokeDown Duration.zero))] ++ [(7, .receive)]) s ∧
      s.controller.calls.size = 1 ∧ s.controller.tally.sent = 1 ∧ s.controller.tally.failed = 1 ∧
      s.controller.isTerminated = true := by
    refine ⟨_, rfl, _, .snoc (.snoc (.snoc (.snoc .nil rfl) rfl) rfl) rfl, ?_, ?_, ?_, ?_⟩ <;> rfl
  have hfew : s.controller.calls.size ≤ Count.top := by rw [hcalls]; decide
  obtain ⟨_, _, _, _, _, _, _, hall⟩ := run_conserves_operations hstart hleads hfew
  exact ⟨c, s, hstart, hleads, hfew, hsent, hfailed, ht, hall ht⟩

end Cadence.Run.System
