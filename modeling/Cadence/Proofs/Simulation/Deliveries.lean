import Cadence.Proofs.Run.Gathering
import Cadence.Proofs.Simulation.Punctual

/-!
# Deliveries

On the virtual clock the result of an operation is fixed as soon as it was dispatched: its behaviour says when it
delivers, and what (`Brings`). `Delivered` traces this from the operations that are busy to the results taken in, which
are in the order of their instants; `Delivered.advance` carries it through a run.
-/

namespace Cadence.Run

namespace Controller

variable {σ : Type}

/-- The operation was dispatched, and what it does from then on makes it deliver then, and this. -/
def Brings (env : Environment) (c : Controller σ) (operation due : Nat) (o : Outcome) : Prop :=
  ∃ call, c.calls[operation]? = some call ∧
    (env.behaviour operation call.item).delivery call.instant call.timeout = (due, o)

/-- What a reaction to anything but a result leaves of the traces of a run, and what it may add. -/
structure Extends (c d : Controller σ) (now : Nat) : Prop where
  completions : d.completions = c.completions
  produced : d.produced = c.produced
  earlier : ∀ (i : Nat) call, c.calls[i]? = some call → d.calls[i]? = some call
  later : ∀ (i : Nat) call, c.calls.size ≤ i → d.calls[i]? = some call → call.instant = now
  stopped : d.stopped = c.stopped ∨ d.stopped = some now
  ended : d.phase ≠ .running → d.stopped = some now

lemma Extends.of_running {c : Controller σ} {now} (hp : c.phase = .running) : Extends c c now where
  completions := rfl
  produced := rfl
  earlier _ _ h := h
  later i call hi h := by
    rw [Array.getElem?_eq_none hi] at h
    cases h
  stopped := .inl rfl
  ended h := absurd hp h

lemma Extends.feed {c : Controller σ} {now batch source} (hp : c.phase = .running) :
    Extends c (c.feed now batch source) now := by
  rw [feed_eq]
  refine ⟨rfl, rfl, fun i call h => ?_, fun i call hi h => ?_, .inl rfl, fun h => absurd hp h⟩
  · rw [Array.getElem?_append_left (Array.getElem?_eq_some_iff.mp h).1]
    exact h
  · rw [Array.getElem?_append_right hi, Array.getElem?_map, Option.map_eq_some_iff] at h
    obtain ⟨item, _, rfl⟩ := h
    rfl

lemma Extends.stop {c d : Controller σ} {now cause} (h : Extends c d now) (hp : d.phase = .running) :
    Extends c (d.stop now cause) now := by
  rw [stop_of_running hp]
  exact ⟨h.completions, h.produced, h.earlier, h.later, .inr rfl, fun _ => rfl⟩

/-- Every reaction to anything but a result extends the run. -/
lemma Reaction.extends [Source σ] {c d : Controller σ} {now e} (h : Reaction c now e d)
    (he : ∀ operation o, e ≠ .completion operation o) : Extends c d now := by
  cases h with
  | interrupt hp => exact (Extends.of_running hp).stop hp
  | completion => exact absurd rfl (he _ _)
  | deadline hp => exact (Extends.of_running hp).stop hp
  | report hp =>
    have hc : Extends c c now := .of_running hp
    exact ⟨rfl, rfl, hc.earlier, hc.later, .inl rfl, fun h => absurd hp h⟩
  | tick hp => exact .feed hp
  | lastTick hp => exact (Extends.feed hp).stop (feed_running hp)

/-- What an operation brings is settled once it was dispatched. -/
lemma Brings.mono {env : Environment} {c d : Controller σ} {operation due o} (h : Brings env c operation due o)
    (hcd : ∀ (i : Nat) call, c.calls[i]? = some call → d.calls[i]? = some call) : Brings env d operation due o := by
  obtain ⟨call, hcall, hb⟩ := h
  exact ⟨call, hcd _ _ hcall, hb⟩

/-- A run that has ended does not dispatch. -/
lemma not_running_of_settle {d : Controller σ} (h : d.settle.isTerminated = true) : d.phase ≠ .running := by
  intro hp
  obtain ⟨k, hk⟩ := isTerminated_iff.mp h
  rw [settle_running.mpr hp] at hk
  cases hk

end Controller

namespace Simulation
open Controller

variable {σ : Type}

/-- Every operation delivers when and what it has to, its result is taken in at once, and results are taken in in
order. -/
structure Delivered (env : Environment) (s : Simulation σ) : Prop where
  unbegun : ∀ i call, s.begun ≤ i → s.controller.calls[i]? = some call → call.instant = s.now
  busy : ∀ p ∈ s.busy, Brings env s.controller p.operation p.due p.outcome
  ready : ∀ p ∈ s.ready, Brings env s.controller p.operation p.due p.outcome
  taken : ∀ k ∈ s.controller.completions, Brings env s.controller k.operation k.instant k.outcome
  sorted : s.controller.completions.toList.Pairwise (·.instant ≤ ·.instant)
  past : ∀ k ∈ s.controller.completions, k.instant ≤ s.now
  produced : s.controller.produced.toList = s.controller.completions.toList.filterMap Completion.made?
  stopped : ∀ t, s.controller.stopped = some t → t ≤ s.now
  ended : s.controller.isTerminated = true →
    s.controller.stopped = some s.now ∨ ∃ k ∈ s.controller.completions, k.instant = s.now

lemma Delivered.init {env : Environment} {plan : Plan} {source : σ} {reporter deadline} :
    Delivered env (init (fresh plan source 0 reporter deadline)) where
  unbegun := nofun
  busy := nofun
  ready := nofun
  taken := nofun
  sorted := .nil
  past := nofun
  produced := rfl
  stopped := nofun
  ended := nofun

/-- What begins now brings what its behaviour says. -/
lemma Delivered.beginning {env : Environment} {s : Simulation σ} (h : Delivered env s) {p}
    (hp : p ∈ s.beginning env) : Brings env s.controller p.operation p.due p.outcome := by
  simp only [Simulation.beginning, List.mem_filterMap, Option.map_eq_some_iff] at hp
  obtain ⟨i, hi, call, hcall, rfl⟩ := hp
  refine ⟨call, hcall, ?_⟩
  rw [h.unbegun i call (List.mem_range'_1.mp hi).1 hcall]
  rfl

/-- Taking in a result keeps everything delivered. -/
lemma Delivered.completion {env : Environment} {s : Simulation σ} {p rest inFlight} (h : Delivered env s)
    (hq : Punctual env s) (hw : s.ready = p :: rest) :
    Delivered env { s with
      controller := (s.controller.absorb s.now p.operation p.outcome inFlight).settle
      ready := rest } where
  unbegun := h.unbegun
  busy := h.busy
  ready q hmem := h.ready q (hw ▸ List.mem_cons_of_mem p hmem)
  taken k hk := by
    obtain hk | rfl := Array.mem_push.mp hk
    · exact h.taken k hk
    · -- a result that waits delivers now, so it is taken in at once
      have hp : p ∈ s.ready := hw ▸ List.mem_cons_self
      have hb := h.ready p hp
      rw [hq.ready p hp] at hb
      exact hb
  sorted := pairwise_push h.sorted fun k hk => h.past k hk
  past k hk := by
    obtain hk | rfl := Array.mem_push.mp hk
    · exact h.past k hk
    · exact Nat.le_refl _
  produced := by
    show (s.controller.absorb s.now p.operation p.outcome inFlight).produced.toList
      = (s.controller.completions.push ⟨s.now, p.operation, p.outcome⟩).toList.filterMap Completion.made?
    rw [produced_absorb, Array.toList_push, List.filterMap_append, h.produced]
    cases hm : Completion.made? ⟨s.now, p.operation, p.outcome⟩ <;> simp [hm]
  stopped := h.stopped
  ended _ := .inr ⟨⟨s.now, p.operation, p.outcome⟩, Array.mem_push_self, rfl⟩

/-- A reaction to anything but a result keeps everything delivered. -/
lemma Delivered.event [Source σ] {env : Environment} {s : Simulation σ} {e d} (h : Delivered env s)
    (hr : Reaction s.controller s.now e d) (he : ∀ operation o, e ≠ .completion operation o) :
    Delivered env { s with controller := d.settle } := by
  have hx := hr.extends he
  have hc : d.settle.completions = s.controller.completions := hx.completions
  refine ⟨?_, ?_, ?_, ?_, ?_, ?_, ?_, ?_, ?_⟩
  · intro i call hi hcall
    obtain hlt | hge := Nat.lt_or_ge i s.controller.calls.size
    · have hold := Array.getElem?_eq_getElem hlt
      obtain rfl := Option.some.inj ((hx.earlier i _ hold).symm.trans hcall)
      exact h.unbegun i _ hi hold
    · exact hx.later i call hge hcall
  · exact fun p hp => (h.busy p hp).mono hx.earlier
  · exact fun p hp => (h.ready p hp).mono hx.earlier
  · intro k hk
    exact (h.taken k (hc ▸ hk)).mono hx.earlier
  · exact hc ▸ h.sorted
  · exact fun k hk => h.past k (hc ▸ hk)
  · show d.produced.toList = d.completions.toList.filterMap Completion.made?
    rw [hx.produced, hx.completions]
    exact h.produced
  · intro t ht
    obtain hs | hs := hx.stopped
    · exact h.stopped t (hs ▸ ht)
    · have ht : some s.now = some t := hs ▸ ht
      cases ht
      exact Nat.le_refl _
  · exact fun ht => .inl (hx.ended (not_running_of_settle ht))

/-- No small step delivers anything else, or at another time. -/
theorem Delivered.advance [Source σ] {env : Environment} {s t : Simulation σ} (h : Delivered env s)
    (hq : Punctual env s) (ha : Advance env s t) : Delivered env t := by
  cases ha with
  | @event e d ht hn _ hr =>
    cases hn with
    | interrupt => exact h.event hr nofun
    | deadline => exact h.event hr nofun
    | report => exact h.event hr nofun
    | tick => exact h.event hr nofun
    | @completion p rest hw =>
      cases hr with
      | completion =>
        simp only [reacted, hw, List.tail_cons]
        exact h.completion hq hw
  | deliver ht hquiet =>
    have hall : ∀ p ∈ s.busy ++ s.beginning env, Brings env s.controller p.operation p.due p.outcome := by
      intro p hp
      obtain hp | hp := List.mem_append.mp hp
      · exact h.busy p hp
      · exact h.beginning hp
    refine ⟨?_, ?_, ?_, h.taken, h.sorted, h.past, h.produced, h.stopped, fun hx => ?_⟩
    · intro i call hi hcall
      have hnone : s.controller.calls[i]? = none := Array.getElem?_eq_none hi
      exact absurd (hnone.symm.trans hcall) nofun
    · exact fun p hp => hall p (List.mem_filter.mp hp).1
    · intro p hp
      obtain hp | hp := List.mem_append.mp hp
      · exact h.ready p hp
      · exact hall p (List.mem_filter.mp hp).1
    · exact h.ended hx
  | @jump u ht hquiet hd =>
    refine ⟨?_, h.busy, h.ready, h.taken, h.sorted, ?_, h.produced, ?_, fun hx => ?_⟩
    · intro i call hi hcall
      simp only [hasDeliveries, Bool.or_eq_false_iff, decide_eq_false_iff_not, Nat.not_lt] at hd
      rw [Array.getElem?_eq_none (Nat.le_trans hd.1 hi)] at hcall
      cases hcall
    · exact fun k hk => Nat.le_trans (h.past k hk) (Nat.le_max_left _ _)
    · exact fun t hs => Nat.le_trans (h.stopped t hs) (Nat.le_max_left _ _)
    · rw [ht] at hx
      cases hx

end Simulation
end Cadence.Run
