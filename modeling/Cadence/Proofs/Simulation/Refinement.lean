import Cadence.Proofs.Run.Ledger
import Cadence.Proofs.Simulation.Punctual
import Cadence.Run.Process

/-!
# The virtual clock as one order of things

A run on the virtual clock is a run among its tasks that things happen to in one particular order: what is busy or has
yet to begin are its tasks, what is ready waits on the channel (`Simulation.system`). Every small step is a list of
moves, and as nothing is late, no timer breaks down at any of them (`Advance.flows`); so all that holds of every run holds on
the virtual clock too.

* `Passes.leads`: the states of a run on the virtual clock are states that moves lead to.
* `Passes.ledger`, `Passes.orderly`: its books balance, and its phases are in order.
-/

namespace Cadence.Run

/-- The result of an operation, on its way. -/
def Pending.delivery (p : Pending) : Delivery := ⟨p.operation, p.outcome⟩

namespace System
open Controller

variable {σ : Type} [Source σ]

/-- A list of moves leads from one state to another, and no timer breaks down. -/
inductive Flows (s : System σ) : List (Nat × Move) → System σ → Prop where
  | nil : Flows s [] s
  | snoc {moves t u now m} :
    Flows s moves t →
    t.breaks now m = false →
    t.step now m = .ok u →
    Flows s (moves ++ [(now, m)]) u

lemma Flows.leads {s t : System σ} {moves} (h : s.Flows moves t) : s.Leads moves t := by
  induction h with
  | nil => exact .nil
  | snoc _ _ hs ih => exact .snoc ih hs

lemma Flows.trans {s t u : System σ} {first second} (h : s.Flows first t) (h' : t.Flows second u) :
    s.Flows (first ++ second) u := by
  induction h' with
  | nil => rw [List.append_nil]; exact h
  | snoc _ hwhole hs ih => rw [← List.append_assoc]; exact .snoc ih hwhole hs

/-- Some tasks end one after the other. -/
lemma flows_finish (now : Nat) (l : List Pending) (s : System σ) (hmem : ∀ p ∈ l, p.operation ∈ s.tasks)
    (hnd : (l.map Pending.operation).Nodup) :
    ∃ moves, s.Flows moves { s with
      tasks := s.tasks.filter (· ∉ l.map Pending.operation)
      channel :=
        { waiting := s.channel.waiting ++ l.map Pending.delivery
          senders := s.channel.senders - l.length } } := by
  induction l generalizing s with
  | nil => exact ⟨[], by simpa using Flows.nil⟩
  | cons p l ih =>
    obtain ⟨hp, hnd⟩ := List.nodup_cons.mp hnd
    let how : TaskEnd := .returned p.outcome Duration.zero
    have hstep : s.step now (.finish p.operation how) = .ok (s.ended p.operation how) := by
      have hin : p.operation ∈ s.tasks := hmem p List.mem_cons_self
      simp only [step, finish, if_pos hin, ended]
    have hrest : ∀ q ∈ l, q.operation ∈ (s.ended p.operation how).tasks := by
      intro q hq
      refine List.mem_filter.mpr ⟨hmem q (List.mem_cons_of_mem _ hq), ?_⟩
      exact decide_eq_true fun he => hp (he ▸ List.mem_map_of_mem hq)
    obtain ⟨moves, hl⟩ := ih (s.ended p.operation how) hrest hnd
    refine ⟨[(now, .finish p.operation how)] ++ moves, (Flows.snoc .nil rfl hstep).trans ?_⟩
    have htasks : (s.ended p.operation how).tasks.filter (· ∉ l.map Pending.operation)
        = s.tasks.filter (· ∉ (p :: l).map Pending.operation) := by
      rw [ended, List.filter_filter]
      apply List.filter_congr
      intro i _
      simp only [List.map_cons, List.mem_cons, not_or]
      rw [← Bool.decide_and]
      exact decide_eq_decide.mpr ⟨fun h => ⟨h.2, h.1⟩, fun h => ⟨h.2, h.1⟩⟩
    have hwaiting : (s.ended p.operation how).channel.waiting ++ l.map Pending.delivery
        = s.channel.waiting ++ (p :: l).map Pending.delivery := by
      rw [ended, how.messages_eq, List.append_assoc]
      rfl
    have hsenders : (s.ended p.operation how).channel.senders - l.length
        = s.channel.senders - (p :: l).length := by
      rw [ended, List.length_cons, Nat.sub_sub, Nat.add_comm 1]
    rw [htasks, hwaiting, hsenders] at hl
    exact hl

end System

namespace Simulation
open Controller

variable {σ : Type}

/-- A run on the virtual clock, as a run among its tasks. -/
def system (s : Simulation σ) : System σ :=
  let tasks := s.busy.map Pending.operation ++ List.range' s.begun (s.controller.calls.size - s.begun)
  ⟨s.controller, tasks, ⟨s.ready.map Pending.delivery, tasks.length + 1⟩⟩

/-- What begins now are the operations that have not begun. -/
lemma map_beginning (env : Environment) (s : Simulation σ) :
    (s.beginning env).map Pending.operation
      = List.range' s.begun (s.controller.calls.size - s.begun) := by
  unfold beginning
  rw [List.map_filterMap]
  refine (List.filterMap_congr fun i hi => ?_).trans (List.filterMap_some)
  have hlt : i < s.controller.calls.size := by
    have := List.mem_range'_1.mp hi
    omega
  rw [Array.getElem?_eq_getElem hlt]
  rfl

/-- No operation begins before it was dispatched. -/
lemma Advance.begun_le [Source σ] {env : Environment} {s t : Simulation σ} (h : Advance env s t)
    (hb : s.begun ≤ s.controller.calls.size) : t.begun ≤ t.controller.calls.size := by
  cases h with
  | event _ _ _ hr => exact Nat.le_trans hb hr.calls_le
  | deliver => exact Nat.le_refl _
  | jump => exact hb

lemma Advance.calls_le [Source σ] {env : Environment} {s t : Simulation σ} (h : Advance env s t) :
    s.controller.calls.size ≤ t.controller.calls.size := by
  cases h with
  | event _ _ _ hr => exact hr.calls_le
  | deliver => exact Nat.le_refl _
  | jump => exact Nat.le_refl _

/-- The system of a run whose controller dispatched some more operations. -/
lemma system_spawn {s : Simulation σ} {c : Controller σ} (hb : s.begun ≤ s.controller.calls.size)
    (hc : s.controller.calls.size ≤ c.calls.size) : ({ s with controller := c }).system = s.system.spawn c := by
  have hsum : c.calls.size - s.begun
      = (s.controller.calls.size - s.begun) + (c.calls.size - s.controller.calls.size) := by omega
  have hrange : List.range' s.begun (c.calls.size - s.begun)
      = List.range' s.begun (s.controller.calls.size - s.begun)
        ++ List.range' s.controller.calls.size (c.calls.size - s.controller.calls.size) := by
    rw [hsum, ← List.range'_append_1, Nat.add_sub_cancel' hb]
  simp only [system, System.spawn, hrange, List.append_assoc, List.length_append]
  congr 2
  omega

/-- The tasks of a run are what is busy and what begins now. -/
lemma system_tasks (env : Environment) (s : Simulation σ) :
    s.system.tasks = (s.busy ++ s.beginning env).map Pending.operation := by
  rw [List.map_append, map_beginning]
  rfl

/-- The system of a run after its deliveries: what is due left the tasks and waits on the channel. -/
lemma system_deliver (env : Environment) (s : Simulation σ) :
    let all := s.busy ++ s.beginning env
    (s.deliver env).system = { s.system with
      tasks := (all.filter fun p => s.now < p.due).map Pending.operation
      channel :=
        { waiting := s.system.channel.waiting ++ (all.filter fun p => p.due ≤ s.now).map Pending.delivery
          senders := (all.filter fun p => s.now < p.due).length + 1 } } := by
  simp [system, deliver]

/-- Those that are not due are the ones whose operation is not one of those that are. -/
lemma filter_operations {all : List Pending} (hnd : (all.map Pending.operation).Nodup) (now : Nat) :
    (all.map Pending.operation).filter (· ∉ (all.filter fun p => p.due ≤ now).map Pending.operation)
      = (all.filter fun p => now < p.due).map Pending.operation := by
  rw [List.filter_map]
  congr 1
  apply List.filter_congr
  intro p hp
  have hin : p.operation ∈ (all.filter fun p => p.due ≤ now).map Pending.operation
      ↔ p ∈ all.filter fun p => p.due ≤ now := by
    refine ⟨fun h => ?_, fun h => List.mem_map_of_mem h⟩
    obtain ⟨q, hq, he⟩ := List.mem_map.mp h
    exact List.inj_on_of_nodup_map hnd (List.mem_filter.mp hq).1 hp he ▸ hq
  simp only [Function.comp, hin, List.mem_filter, hp, true_and, decide_eq_true_eq, Nat.not_le]

lemma length_filter_due (all : List Pending) (now : Nat) :
    all.length = (all.filter fun p => p.due ≤ now).length + (all.filter fun p => now < p.due).length := by
  rw [List.length_eq_length_filter_add (fun p : Pending => decide (p.due ≤ now))]
  congr 2
  apply List.filter_congr
  intro p _
  rw [← decide_not]
  exact decide_eq_decide.mpr Nat.not_le

/-- What delivers leaves the tasks and waits on the channel. -/
lemma deliver_flows [Source σ] {env : Environment} {s : Simulation σ} (hl : System.Ledger s.system) :
    ∃ moves, s.system.Flows moves (s.deliver env).system := by
  let all := s.busy ++ s.beginning env
  have htasks : s.system.tasks = all.map Pending.operation := system_tasks env s
  have hnd : (all.map Pending.operation).Nodup := htasks ▸ hl.tasks_nodup
  let due := all.filter fun p => p.due ≤ s.now
  have hsub : due.Sublist all := List.filter_sublist
  obtain ⟨moves, h⟩ := System.flows_finish s.now due s.system
    (fun p hp => htasks ▸ List.mem_map_of_mem (hsub.subset hp)) (hnd.sublist (hsub.map _))
  have hleft : s.system.tasks.filter (· ∉ due.map Pending.operation)
      = (all.filter fun p => s.now < p.due).map Pending.operation := by
    rw [htasks]
    exact filter_operations hnd s.now
  have hsenders : s.system.channel.senders - due.length = (all.filter fun p => s.now < p.due).length + 1 := by
    have hlen : s.system.channel.senders = s.system.tasks.length + 1 := rfl
    have hcount : all.length = due.length + (all.filter fun p => s.now < p.due).length :=
      length_filter_due all s.now
    rw [hlen, htasks, List.length_map]
    omega
  rw [hleft, hsenders] at h
  rw [system_deliver]
  exact ⟨moves, h⟩

/-- No timer of a punctual run breaks down when it fires. -/
lemma Punctual.not_breaks_report {env : Environment} {s : Simulation σ} (h : Punctual env s)
    (hp : s.controller.phase = .running) (hdue : s.controller.reporter.timer.isDue s.now = true) :
    s.system.breaks s.now .report = false := by
  rw [h.report_now hp hdue]
  exact Bool.and_eq_false_iff.mpr (.inr (not_breaks_of_ceilMs _))

lemma Punctual.not_breaks_tick {env : Environment} {s : Simulation σ} (h : Punctual env s)
    (hp : s.controller.phase = .running) (hdue : s.controller.ticker.isDue s.now = true) :
    s.system.breaks s.now .tick = false := by
  rw [h.tick_now hp hdue]
  exact Bool.and_eq_false_iff.mpr (.inr (not_breaks_of_ceilMs _))

/-- A small step of a punctual run is a list of moves, and no timer breaks down. -/
theorem Advance.flows [Source σ] {env : Environment} {s t : Simulation σ} (h : Advance env s t) (hq : Punctual env s)
    (hl : System.Ledger s.system) (hb : s.begun ≤ s.controller.calls.size) :
    ∃ moves, s.system.Flows moves t.system := by
  cases h with
  | @event e d ht hn hs hr =>
    have hsignal : ∀ m, s.system.breaks s.now m = false → s.system.step s.now m = s.system.signal s.now e →
        s.reacted e d.settle = { s with controller := d.settle } →
        ∃ moves, s.system.Flows moves (s.reacted e d.settle).system := by
      intro m hwhole hm he
      refine ⟨[(s.now, m)], .snoc .nil hwhole ?_⟩
      rw [hm, he, system_spawn (c := d.settle) hb hr.calls_le]
      simp only [System.signal, system, hs]
      rfl
    cases hn with
    | interrupt => exact hsignal .interrupt rfl rfl rfl
    | deadline => exact hsignal .deadline rfl rfl rfl
    | report hp _ _ _ hdue => exact hsignal .report (hq.not_breaks_report hp hdue) rfl rfl
    | tick hp _ _ _ _ hdue => exact hsignal .tick (hq.not_breaks_tick hp hdue) rfl rfl
    | @completion p rest hw =>
      refine ⟨[(s.now, .receive)], .snoc .nil rfl ?_⟩
      have hcalls : d.settle.calls = s.controller.calls := by cases hr; rfl
      simp only [System.step, System.receive, system, ht, hw, List.map_cons, Pending.delivery, hs,
        reacted, List.tail_cons, hcalls]
      rfl
  | deliver => exact deliver_flows hl
  | jump => exact ⟨[], .nil⟩

variable [Source σ] {env : Environment} {plan : Plan} {source : σ} {reporter : Reporter} {deadline : Option Nat}

/-- No operation begins before it was dispatched, in the whole run. -/
lemma Passes.begun_le {n} {s : Simulation σ} (h : Passes env (init (fresh plan source 0 reporter deadline)) n s) :
    s.begun ≤ s.controller.calls.size := by
  induction h with
  | zero => exact Nat.le_refl 0
  | succ _ ha ih => exact (advance_inv ha).begun_le ih

/-- The states of a run on the virtual clock are states that moves lead to at which no timer breaks down. -/
theorem Passes.flows {n} {s : Simulation σ} (h : Passes env (init (fresh plan source 0 reporter deadline)) n s)
    (hfew : s.controller.calls.size ≤ Count.top) :
    ∃ moves, (System.init (fresh plan source 0 reporter deadline)).Flows moves s.system := by
  induction h with
  | zero => exact ⟨[], .nil⟩
  | succ hp ha ih =>
    have hadv := advance_inv ha
    have hless := Nat.le_trans hadv.calls_le hfew
    obtain ⟨before, hb⟩ := ih hless
    obtain ⟨after, hl⟩ := hadv.flows hp.punctual (hb.leads.ledger System.Ledger.init hless) hp.begun_le
    exact ⟨before ++ after, hb.trans hl⟩

/-- The states of a run on the virtual clock are states that moves lead to. -/
theorem Passes.leads {n} {s : Simulation σ} (h : Passes env (init (fresh plan source 0 reporter deadline)) n s)
    (hfew : s.controller.calls.size ≤ Count.top) :
    ∃ moves, (System.init (fresh plan source 0 reporter deadline)).Leads moves s.system := by
  obtain ⟨moves, hflows⟩ := h.flows hfew
  exact ⟨moves, hflows.leads⟩

/-- The books of a run on the virtual clock balance. -/
theorem Passes.ledger {n} {s : Simulation σ} (h : Passes env (init (fresh plan source 0 reporter deadline)) n s)
    (hfew : s.controller.calls.size ≤ Count.top) : System.Ledger s.system := by
  obtain ⟨moves, hl⟩ := h.leads hfew
  exact hl.ledger System.Ledger.init hfew

/-- The phases of a run on the virtual clock are in order. -/
theorem Passes.orderly {n} {s : Simulation σ} (h : Passes env (init (fresh plan source 0 reporter deadline)) n s) :
    s.controller.Orderly :=
  h.invariant .fresh fun _ _ _ _ ho hr => ho.reaction hr

end Simulation
end Cadence.Run
