import Cadence.Proofs.Run.Lifecycle
import Cadence.Run.System

/-!
# Inversion of a move

What one move can do to a run among its tasks. A move that succeeds is a `Change` (`step_inv`): it changes nothing,
ends a task, takes in the oldest result that waits, or makes the controller react to something else.

* `Leads.calls_le`: no dispatched operation is taken back.
* `Leads.invariant`: what no reaction breaks holds all along a run; so every state of it is orderly (`Leads.orderly`).
* `Leads.shown`: every report shows a state that the run passed through.
-/

namespace Cadence.Run.System
open Controller

variable {σ : Type}

/-- The system after the task of `operation` ended. -/
def ended (s : System σ) (operation : Nat) (how : TaskEnd) : System σ :=
  { s with
    tasks := s.tasks.filter (· ≠ operation)
    channel :=
      { waiting := s.channel.waiting ++ how.messages.map (⟨operation, ·⟩)
        senders := s.channel.senders - 1 } }

/-- The system after a result was taken in, with what waits and what is in flight without it. -/
def taken (s : System σ) (now : Nat) (d : Delivery) (rest : List Delivery) (inFlight : InFlight) : System σ :=
  { s with
    controller := (s.controller.absorb now d.operation d.outcome inFlight).settle
    channel := { s.channel with waiting := rest } }

/-- The event that a signal brings. -/
def eventOf? : Move → Option Event
  | .interrupt => some .interrupt
  | .deadline => some .deadline
  | .report => some .report
  | .tick => some .tick
  | _ => none

/-- What a move makes of a system. -/
inductive Change [Source σ] (s : System σ) (now : Nat) : Move → System σ → Prop where
  | same {m} :
    Change s now m s
  | finish {i how} :
    i ∈ s.tasks →
    Change s now (.finish i how) (s.ended i how)
  | receive {d rest inFlight} :
    s.controller.isTerminated = false →
    s.channel.waiting = d :: rest →
    s.controller.inFlight.complete = .ok inFlight →
    Change s now .receive (s.taken now d rest inFlight)
  | signal {m e d} :
    (∀ operation o, e ≠ .completion operation o) →
    Reaction s.controller now e d →
    eventOf? m = some e →
    Change s now m (s.spawn d.settle)

/-- A report shows the figures of a system. -/
structure Shows (r : Snapshot) (s : System σ) : Prop where
  sent : r.sent = s.controller.tally.sent
  completed : r.completed = s.controller.tally.completed
  failed : r.failed = s.controller.tally.failed
  inFlight : r.inFlight = s.controller.inFlight.active

/-- A signal is ignored, or the run reacts to it. -/
lemma signal_cases [Source σ] {s t : System σ} {now e} (h : s.signal now e = .ok t) :
    (s.controller.accepts e = false ∧ t = s) ∨ ∃ d, Reaction s.controller now e d ∧ t = s.spawn d.settle := by
  unfold signal at h
  cases hc : s.controller.step now e with
  | error f => rw [hc] at h; cases h
  | ok c =>
    rw [hc] at h
    cases h
    obtain ⟨ha, rfl⟩ | ⟨d, hr, rfl⟩ := Controller.step_inv hc
    · exact .inl ⟨ha, by simp [System.spawn]⟩
    · exact .inr ⟨d, hr, rfl⟩

/-- A signal leaves the run as it is or makes it react. -/
lemma signal_inv [Source σ] {s t : System σ} {now e m} (h : s.signal now e = .ok t) (hm : eventOf? m = some e)
    (he : ∀ operation o, e ≠ .completion operation o) : Change s now m t := by
  obtain ⟨_, rfl⟩ | ⟨d, hr, rfl⟩ := signal_cases h
  · exact .same
  · exact .signal he hr hm

/-- Looking at the channel changes nothing, or takes in the oldest result. -/
lemma receive_inv [Source σ] {s t : System σ} {now} (h : s.receive now = .ok t) : Change s now .receive t := by
  unfold receive at h
  split at h
  · cases h; exact .same
  · next ht =>
    split at h
    · split at h
      · cases h
      · cases h; exact .same
    · next d rest hw =>
      cases hc : s.controller.step now (.completion d.operation d.outcome) with
      | error f => rw [hc] at h; cases h
      | ok c =>
        rw [hc] at h
        cases h
        obtain ⟨hn, _⟩ | ⟨_, hr, rfl⟩ := Controller.step_inv hc
        · rw [accepts_completion] at hn
          simp [ht] at hn
        · cases hr with
          | completion ht hf => exact .receive ht hw hf

/-- A move that succeeds is a change. -/
theorem step_inv [Source σ] {s t : System σ} {now m} (h : s.step now m = .ok t) : Change s now m t := by
  cases m with
  | finish i how =>
    cases h
    unfold System.finish
    split
    · next hi => exact .finish hi
    · exact .same
  | receive => exact receive_inv h
  | interrupt => exact signal_inv h rfl nofun
  | deadline => exact signal_inv h rfl nofun
  | report => exact signal_inv h rfl nofun
  | tick => exact signal_inv h rfl nofun

lemma step_calls_le [Source σ] {s t : System σ} {now m} (h : s.step now m = .ok t) :
    s.controller.calls.size ≤ t.controller.calls.size := by
  cases step_inv h with
  | same => exact Nat.le_refl _
  | finish => exact Nat.le_refl _
  | receive => exact Nat.le_refl _
  | signal _ hr => exact hr.calls_le

/-- A move leaves the reports alone or adds one that shows the system before it. -/
lemma step_reports [Source σ] {s t : System σ} {now m} (h : s.step now m = .ok t) :
    t.controller.reports = s.controller.reports ∨
    ∃ r, t.controller.reports = s.controller.reports.push r ∧ Shows r s := by
  cases step_inv h with
  | same => exact .inl rfl
  | finish => exact .inl rfl
  | receive => exact .inl rfl
  | signal _ hr =>
    obtain hd | ⟨r, hd, h1, h2, h3, h4⟩ := hr.reports
    · exact .inl hd
    · exact .inr ⟨r, hd, h1, h2, h3, h4⟩

lemma Leads.calls_le [Source σ] {s t : System σ} {moves} (hrun : s.Leads moves t) :
    s.controller.calls.size ≤ t.controller.calls.size := by
  induction hrun with
  | nil => exact Nat.le_refl _
  | snoc _ hs ih => exact Nat.le_trans ih (step_calls_le hs)

/-- What no reaction breaks holds all along a run. -/
theorem Leads.invariant [Source σ] {P : Controller σ → Prop} {s t : System σ} {moves} (hrun : s.Leads moves t)
    (h : P s.controller) (hreaction : ∀ c now e d, P c → Reaction c now e d → P d.settle) : P t.controller := by
  induction hrun with
  | nil => exact h
  | snoc _ hs ih =>
    cases step_inv hs with
    | same => exact ih
    | finish => exact ih
    | receive ht _ hf => exact hreaction _ _ _ _ ih (.completion ht hf)
    | signal _ hr => exact hreaction _ _ _ _ ih hr

lemma Leads.frame [Source σ] {s t : System σ} {moves} (hrun : s.Leads moves t) : Frame s.controller t.controller :=
  hrun.invariant (.refl _) fun _ _ _ _ h hr => h.trans hr.frame.settle

lemma Leads.orderly [Source σ] {s t : System σ} {moves} (hrun : s.Leads moves t) (h : s.controller.Orderly) :
    t.controller.Orderly :=
  hrun.invariant h fun _ _ _ _ ho hr => ho.reaction hr

/-- Every report of a run shows a state that the run passed through. -/
theorem Leads.shown [Source σ] {s t : System σ} {moves} (hrun : s.Leads moves t)
    (h0 : s.controller.reports = #[]) :
    ∀ r ∈ t.controller.reports, ∃ before rest u,
      moves = before ++ rest ∧ s.Leads before u ∧ u.Leads rest t ∧ Shows r u := by
  induction hrun with
  | nil => simp [h0]
  | @snoc moves t u now m hrun hs ih =>
    have hkeep : ∀ r ∈ t.controller.reports, ∃ before rest v,
        moves ++ [(now, m)] = before ++ rest ∧ s.Leads before v ∧ v.Leads rest u ∧ Shows r v := by
      intro r hr
      obtain ⟨before, rest, v, he, hv, hr, hsh⟩ := ih r hr
      exact ⟨before, rest ++ [(now, m)], v, by rw [he, List.append_assoc], hv, .snoc hr hs, hsh⟩
    intro r hr
    -- what is reported by a move is the state that it met
    obtain he | ⟨r', he, hsh⟩ := step_reports hs
    · exact hkeep r (he ▸ hr)
    · rw [he, Array.mem_push] at hr
      obtain hr | rfl := hr
      · exact hkeep r hr
      · exact ⟨moves, [(now, m)], t, rfl, hrun, .snoc .nil hs, hsh⟩

end Cadence.Run.System
