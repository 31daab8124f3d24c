import Cadence.Proofs.Run.Moves
import Cadence.Proofs.Workload.Batch
import Mathlib.Data.List.Perm.Basic
import Mathlib.Data.List.Nodup

/-!
# Where the operations of a run are

Every operation that was dispatched is in exactly one place: its task has not ended, its result waits on the channel,
or its result was taken in. `Placed` says so of a system, and that as many are in flight as are in the first two; no
move breaks it, as long as the count of those in flight has not come to its top (`Placed.step`). So a run fails only
at a tick, and only for its source (`Placed.step_fault`).
-/

namespace Cadence.Run.System
open Controller

variable {σ : Type}

/-- Every operation is in one place, and those that are outstanding are in flight. -/
structure Placed (s : System σ) : Prop where
  accounted : (s.controller.completions.toList.map Completion.operation
    ++ s.channel.waiting.map Delivery.operation ++ s.tasks).Perm (List.range s.controller.calls.size)
  active : s.controller.inFlight.active = s.outstanding
  senders : s.channel.senders = s.tasks.length + 1

lemma Placed.init {plan : Plan} {source : σ} {started reporter deadline} :
    Placed (init (fresh plan source started reporter deadline)) where
  accounted := by simp [System.init, fresh]
  active := rfl
  senders := rfl

/-- No operation has two tasks. -/
lemma Placed.tasks_nodup {s : System σ} (h : Placed s) : s.tasks.Nodup :=
  (List.nodup_append.mp (h.accounted.nodup_iff.mpr List.nodup_range)).2.1

/-- No more operations are outstanding than were dispatched. -/
lemma Placed.outstanding_le {s : System σ} (h : Placed s) : s.outstanding ≤ s.controller.calls.size := by
  have hl := h.accounted.length_eq
  simp only [List.length_append, List.length_map, List.length_range] at hl
  rw [outstanding]
  omega

/-- Once a run has ended, the result of every operation was taken in, each one once. -/
lemma Placed.completions_of_terminated {s : System σ} (h : Placed s) (ho : s.controller.Orderly)
    (ht : s.controller.isTerminated = true) :
    (s.controller.completions.toList.map Completion.operation).Perm (List.range s.controller.calls.size) := by
  have h0 : s.outstanding = 0 := h.active.symm.trans (ho.active_of_terminated ht)
  have hw : s.channel.waiting = [] := List.eq_nil_of_length_eq_zero (by unfold outstanding at h0; omega)
  have hq : s.tasks = [] := List.eq_nil_of_length_eq_zero (by unfold outstanding at h0; omega)
  have hp := h.accounted
  rw [hw, hq] at hp
  simpa using hp

/-- The end of a task moves its operation onto the channel. -/
lemma Placed.finish {s : System σ} {i : Nat} {how : TaskEnd} (h : Placed s) (hi : i ∈ s.tasks) :
    Placed (s.ended i how) := by
  -- no operation has two tasks, so the end of one takes out exactly one
  have he : s.tasks.filter (· ≠ i) = s.tasks.erase i := by
    rw [h.tasks_nodup.erase_eq_filter]
    exact List.filter_congr fun x _ => by simp [bne, BEq.beq]
  have hp : s.tasks.Perm (i :: s.tasks.filter (· ≠ i)) := he ▸ List.perm_cons_erase hi
  have hl : s.tasks.length = (s.tasks.filter (· ≠ i)).length + 1 := hp.length_eq
  refine ⟨?_, ?_, ?_⟩
  · refine List.Perm.trans ?_ h.accounted
    rw [ended, how.messages_eq]
    simpa using (hp.symm.append_left (s.controller.completions.toList.map Completion.operation
      ++ s.channel.waiting.map Delivery.operation))
  · rw [ended, h.active, outstanding, outstanding, how.messages_eq, hl]
    simp only [List.map_cons, List.map_nil, List.length_append, List.length_singleton]
    omega
  · have := h.senders
    rw [ended]
    dsimp only
    omega

/-- Operations that were dispatched in one go get their tasks. -/
lemma Placed.spawn {s : System σ} {c : Controller σ} {k : Nat} (h : Placed s)
    (h1 : c.completions = s.controller.completions)
    (h2 : c.calls.size = s.controller.calls.size + k)
    (h3 : c.inFlight.active = s.controller.inFlight.active + k) : Placed (s.spawn c) := by
  have hk : c.calls.size - s.controller.calls.size = k := by omega
  refine ⟨?_, ?_, ?_⟩
  · have hr : List.range c.calls.size
        = List.range s.controller.calls.size ++ List.range' s.controller.calls.size k := by
      rw [h2, List.range_add, List.range'_eq_map_range]
    simp only [System.spawn, h1, hk, hr]
    rw [← List.append_assoc]
    exact h.accounted.append_right _
  · simp only [System.spawn, outstanding, h3, hk, h.active, List.length_append, List.length_range']
    omega
  · simp only [System.spawn, hk, h.senders, List.length_append, List.length_range']
    omega

lemma outstanding_spawn (s : System σ) (c : Controller σ) :
    (s.spawn c).outstanding = s.outstanding + (c.calls.size - s.controller.calls.size) := by
  simp only [System.spawn, outstanding, List.length_append, List.length_range']
  omega

lemma Placed.feed {s : System σ} {c : Controller σ} {now batch source} (h : Placed s)
    (hcalls : c.calls = (s.controller.feed now batch source).calls)
    (hcompletions : c.completions = s.controller.completions)
    (hactive : c.inFlight.active = (s.controller.feed now batch source).inFlight.active)
    (hroom : (s.spawn c).outstanding ≤ Count.top) : Placed (s.spawn c) := by
  have hsize : c.calls.size = s.controller.calls.size + batch.size := by simp [hcalls, feed_eq]
  -- there is room for the whole batch, so the count of what is in flight grows by all of it
  have hroom : s.controller.inFlight.active + batch.toList.length ≤ Count.top := by
    rw [outstanding_spawn, hsize, ← h.active] at hroom
    rw [Array.length_toList]
    omega
  apply h.spawn hcompletions hsize
  rw [hactive, feed_eq]
  dsimp only
  rw [foldl_inFlight hroom, Array.length_toList]

/-- Every reaction to anything but a result keeps every operation in its place. -/
lemma Placed.reaction [Source σ] {s : System σ} {d : Controller σ} {now e} (h : Placed s)
    (hr : Reaction s.controller now e d) (he : ∀ operation o, e ≠ .completion operation o)
    (hroom : (s.spawn d.settle).outstanding ≤ Count.top) : Placed (s.spawn d.settle) := by
  cases hr with
  | interrupt hp =>
    rw [stop_of_running hp]
    exact h.spawn (k := 0) rfl rfl rfl
  | completion => exact absurd rfl (he _ _)
  | deadline hp =>
    rw [stop_of_running hp]
    exact h.spawn (k := 0) rfl rfl rfl
  | report => exact h.spawn (k := 0) rfl rfl rfl
  | tick => exact h.feed rfl (by rw [feed_eq]; rfl) rfl hroom
  | lastTick hp =>
    rw [stop_of_running (feed_running hp)] at hroom ⊢
    exact h.feed rfl (by rw [feed_eq]; rfl) rfl hroom

/-- Taking in a result moves its operation from the channel to the results taken. -/
lemma Placed.absorb {s : System σ} {d rest inFlight now} (h : Placed s) (hw : s.channel.waiting = d :: rest)
    (hf : s.controller.inFlight.complete = .ok inFlight) : Placed (s.taken now d rest inFlight) := by
  have ha : s.controller.inFlight.active = inFlight.active + 1 := (complete_inv hf).1
  refine ⟨?_, ?_, h.senders⟩
  · have hp := h.accounted
    rw [hw] at hp
    simpa [taken, settle, Controller.absorb] using hp
  · have := h.active
    rw [outstanding, hw, List.length_cons] at this
    simp only [taken, settle, Controller.absorb, outstanding]
    omega

lemma Placed.step [Source σ] {s t : System σ} {now m} (h : Placed s) (hs : s.step now m = .ok t)
    (hroom : t.outstanding ≤ Count.top) : Placed t := by
  cases step_inv hs with
  | same => exact h
  | finish hi => exact h.finish hi
  | receive _ hw hf => exact h.absorb hw hf
  | signal he hr => exact h.reaction hr he hroom

variable [Source σ]

/-- After a move no more operations are outstanding than were dispatched. -/
lemma Placed.outstanding_step_le {s t : System σ} {now m} (h : Placed s) (hs : s.step now m = .ok t) :
    t.outstanding ≤ t.controller.calls.size := by
  cases step_inv hs with
  | same => exact h.outstanding_le
  | finish hi => exact (h.finish hi).outstanding_le
  | receive _ hw hf => exact (h.absorb hw hf).outstanding_le
  | @signal _ e d _ hr =>
    have hle := h.outstanding_le
    have hcalls : s.controller.calls.size ≤ d.settle.calls.size := hr.calls_le
    rw [outstanding_spawn]
    show _ ≤ d.settle.calls.size
    omega

/-- A run that has dispatched no more operations than can be counted keeps every one in its place. -/
theorem Leads.placed {s t : System σ} {moves} (hrun : s.Leads moves t) (h : Placed s)
    (hfew : t.controller.calls.size ≤ Count.top) : Placed t := by
  -- calls are never taken back, so what bounds them at the end bounds them after every move
  induction hrun with
  | nil => exact h
  | snoc _ hs ih =>
    have hplaced := ih (Nat.le_trans (step_calls_le hs) hfew)
    exact hplaced.step hs (Nat.le_trans (hplaced.outstanding_step_le hs) hfew)

/-- A signal fails only at a tick, when the batch cannot be drawn. -/
lemma signal_fault {s : System σ} {now e f} (hs : s.signal now e = .error f)
    (he : ∀ operation o, e ≠ .completion operation o) :
    e = .tick ∧ s.controller.phase = .running ∧
      ∃ source, Batch.draw s.controller.plan.rate s.controller.source = (.error f, source) := by
  unfold signal at hs
  cases hc : s.controller.step now e with
  | ok c => rw [hc] at hs; cases hs
  | error g =>
    rw [hc] at hs
    cases hs
    obtain ⟨operation, o, heq, _⟩ | hdraw := Controller.step_fault hc
    · exact absurd heq (he operation o)
    · exact hdraw

/-- Looking at the channel never fails. -/
lemma Placed.receive_ok {s : System σ} {now f} (h : Placed s) : s.receive now ≠ .error f := by
  intro hs
  unfold receive at hs
  split at hs
  · cases hs
  · split at hs
    · -- the controller has a sender of its own, so the channel is not closed
      rw [if_neg (by rw [h.senders]; omega)] at hs
      cases hs
    · next d rest hw =>
      cases hc : s.controller.step now (.completion d.operation d.outcome) with
      | ok c => rw [hc] at hs; cases hs
      | error g =>
        obtain ⟨_, _, _, _, h0, _⟩ | ⟨he, _⟩ := Controller.step_fault hc
        · have ha := h.active
          rw [outstanding, hw, List.length_cons] at ha
          omega
        · cases he

/-- A run fails only at a tick, when the batch cannot be drawn. -/
theorem Placed.step_fault {s : System σ} {now m f} (h : Placed s) (hs : s.step now m = .error f) :
    m = .tick ∧ s.controller.phase = .running ∧
      ∃ source, Batch.draw s.controller.plan.rate s.controller.source = (.error f, source) := by
  cases m with
  | finish i how => cases hs
  | receive => exact absurd hs h.receive_ok
  | interrupt => exact absurd (signal_fault hs nofun).1 nofun
  | deadline => exact absurd (signal_fault hs nofun).1 nofun
  | report => exact absurd (signal_fault hs nofun).1 nofun
  | tick => exact ⟨rfl, (signal_fault hs nofun).2⟩

end Cadence.Run.System
