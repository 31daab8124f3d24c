import Cadence.Proofs.Run.Counts
import Cadence.Proofs.Run.Placement

/-!
# The ledger of a run

Every operation that was dispatched is in exactly one place, and all counts of the run agree with it: `Ledger` says so
of a system. It is made up of where the operations are and what was counted of them (`Placed.ledger`). `Heard` traces
every result back to the end of a task.

* `Leads.ledger`: the ledger of every state that a run can reach.
* `Leads.heard`: where its results come from.
-/

namespace Cadence.Run.System
open Controller

variable {σ : Type}

/-- Every operation is in one place, and the counts agree with it. -/
structure Ledger (s : System σ) : Prop where
  accounted : (s.controller.completions.toList.map Completion.operation
    ++ s.channel.waiting.map Delivery.operation ++ s.tasks).Perm (List.range s.controller.calls.size)
  active : s.controller.inFlight.active = s.outstanding
  sent : s.controller.tally.sent = s.controller.calls.size
  completed : s.controller.tally.completed
    = s.controller.completions.toList.countP (·.outcome.succeeded)
  failed : s.controller.tally.failed
    = s.controller.completions.toList.countP (!·.outcome.succeeded)
  senders : s.channel.senders = s.tasks.length + 1

/-- Every result comes from the end of a task among `moves`. -/
structure Heard (moves : List (Nat × Move)) (s : System σ) : Prop where
  waiting : ∀ d ∈ s.channel.waiting, ∃ t how, (t, .finish d.operation how) ∈ moves ∧ d.outcome = how.result
  taken : ∀ k ∈ s.controller.completions, ∃ t how,
    (t, .finish k.operation how) ∈ moves ∧ k.outcome = how.result

lemma Ledger.placed {s : System σ} (h : Ledger s) : Placed s := ⟨h.accounted, h.active, h.senders⟩

/-- As many results were taken in as are counted, no more than operations were dispatched. -/
lemma Placed.completions_le {s : System σ} (h : Placed s) (p : Completion → Bool) :
    s.controller.completions.toList.countP p ≤ s.controller.calls.size := by
  have hl := h.accounted.length_eq
  have hp := List.countP_le_length (p := p) (l := s.controller.completions.toList)
  simp only [List.length_append, List.length_map, List.length_range] at hl
  omega

/-- Where the operations are and what was counted of them make up the ledger, as long as all of them can be counted. -/
lemma Placed.ledger {s : System σ} (h : Placed s) (hc : Counted s.controller)
    (hfew : s.controller.calls.size ≤ Count.top) : Ledger s where
  accounted := h.accounted
  active := h.active
  sent := hc.sent.trans (Count.cap_eq hfew)
  completed := hc.completed.trans (Count.cap_eq (Nat.le_trans (h.completions_le _) hfew))
  failed := hc.failed.trans (Count.cap_eq (Nat.le_trans (h.completions_le _) hfew))
  senders := h.senders

lemma Ledger.counted {s : System σ} (h : Ledger s) (hfew : s.controller.calls.size ≤ Count.top) :
    Counted s.controller where
  sent := h.sent.trans (Count.cap_eq hfew).symm
  completed := h.completed.trans (Count.cap_eq (Nat.le_trans (h.placed.completions_le _) hfew)).symm
  failed := h.failed.trans (Count.cap_eq (Nat.le_trans (h.placed.completions_le _) hfew)).symm

lemma Ledger.init {plan : Plan} {source : σ} {started reporter deadline} :
    Ledger (init (fresh plan source started reporter deadline)) :=
  Placed.init.ledger .fresh (Nat.zero_le _)

lemma Ledger.tasks_nodup {s : System σ} (h : Ledger s) : s.tasks.Nodup := h.placed.tasks_nodup

/-- A result was recorded or is still due for every operation that was dispatched. -/
lemma Ledger.balance {s : System σ} (h : Ledger s) :
    s.controller.tally.sent
      = s.controller.tally.completed + s.controller.tally.failed + s.controller.inFlight.active := by
  have hl := h.accounted.length_eq
  have hc := List.length_eq_countP_add_countP (·.outcome.succeeded) (l := s.controller.completions.toList)
  rw [h.sent, h.active, h.completed, h.failed, outstanding]
  simp only [List.length_append, List.length_map, List.length_range] at hl
  simp only [Bool.not_eq_true, Bool.decide_eq_false] at hc
  omega

/-- The ledger of every state that a run can reach. -/
theorem Leads.ledger [Source σ] {s t : System σ} {moves} (hrun : s.Leads moves t) (h : Ledger s)
    (hfew : t.controller.calls.size ≤ Count.top) : Ledger t :=
  (hrun.placed h.placed hfew).ledger (hrun.counted (h.counted (Nat.le_trans hrun.calls_le hfew))) hfew

/-- What was heard stays heard, whatever moves follow. -/
lemma Heard.append {s : System σ} {moves} (h : Heard moves s) (more : List (Nat × Move)) :
    Heard (moves ++ more) s where
  waiting d hd :=
    have ⟨t, how, hm, ho⟩ := h.waiting d hd
    ⟨t, how, List.mem_append_left _ hm, ho⟩
  taken k hk :=
    have ⟨t, how, hm, ho⟩ := h.taken k hk
    ⟨t, how, List.mem_append_left _ hm, ho⟩

/-- A move brings no result but the one of a task that it ends. -/
lemma Heard.step [Source σ] {s t : System σ} {moves now m} (h : Heard moves s) (hs : s.step now m = .ok t) :
    Heard (moves ++ [(now, m)]) t := by
  cases step_inv hs with
  | same => exact h.append _
  | @finish i how hi =>
    refine ⟨fun d hd => ?_, (h.append _).taken⟩
    rw [ended, how.messages_eq] at hd
    obtain hd | hd := List.mem_append.mp hd
    · exact (h.append _).waiting d hd
    · obtain rfl := List.mem_singleton.mp hd
      exact ⟨now, how, by simp, rfl⟩
  | @receive d rest inFlight _ hw =>
    refine ⟨fun k hk => (h.append _).waiting k (hw ▸ List.mem_cons_of_mem _ hk), fun k hk => ?_⟩
    obtain hk | rfl := Array.mem_push.mp hk
    · exact (h.append _).taken k hk
    · exact (h.append _).waiting d (hw ▸ List.mem_cons_self)
  | signal he hr =>
    have hc := hr.completions he
    exact ⟨(h.append _).waiting, fun k hk => (h.append _).taken k (hc ▸ hk)⟩

/-- Every result of a run is the one that the end of a task brought. -/
theorem Leads.heard [Source σ] {s t : System σ} {moves} (hrun : s.Leads moves t) (h : Heard [] s) :
    Heard moves t := by
  induction hrun with
  | nil => exact h
  | snoc _ hs ih => exact ih.step hs

end Cadence.Run.System
