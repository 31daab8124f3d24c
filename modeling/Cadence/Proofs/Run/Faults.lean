import Cadence.Proofs.Run.Placement
import Cadence.Proofs.Run.Standstill
import Cadence.Run.Process

/-!
# What makes a run fail

A run is refused for its configuration, before anything has happened, or it fails at a tick for its source (`Breach`):
then it has dispatched the batches of the ticks before it, each of them whole (`Batched`), and nothing of the last one.

* `Leads.batched`: as long as a run dispatches, it has dispatched one whole batch at every tick.
* `Endures.placed`: no other fault ever comes, as a process does not have room for so many operations that their count
  could come to its top.
* `run_fails_only_for_config_or_source` puts this together.
-/

namespace Cadence.Run

/-- The instant of a tick. -/
def tickInstant? : Nat × Move → Option Nat
  | (now, .tick) => some now
  | _ => none

/-- The instants of the ticks among the moves. -/
def ticks (moves : List (Nat × Move)) : List Nat := moves.filterMap tickInstant?

/-- The operations that are dispatched when batches are drawn at given instants. -/
def dispatches (timeout : Duration) (instants : List Nat) (batches : List (List Item)) : List Call :=
  (instants.zip batches).flatMap fun (now, batch) => batch.map fun item => ⟨now, item, timeout⟩

lemma ticks_snoc_tick (moves : List (Nat × Move)) (now : Nat) :
    ticks (moves ++ [(now, .tick)]) = ticks moves ++ [now] := by
  simp [ticks, tickInstant?]

lemma ticks_snoc_of_ne {m : Move} (hm : m ≠ .tick) (moves : List (Nat × Move)) (now : Nat) :
    ticks (moves ++ [(now, m)]) = ticks moves := by
  have h : tickInstant? (now, m) = none := by
    cases m with
    | tick => exact absurd rfl hm
    | _ => rfl
  simp [ticks, h]

lemma dispatches_snoc {timeout : Duration} {instants : List Nat} {batches : List (List Item)}
    (h : batches.length = instants.length) (now : Nat) (batch : List Item) :
    dispatches timeout (instants ++ [now]) (batches ++ [batch])
      = dispatches timeout instants batches ++ batch.map fun item => ⟨now, item, timeout⟩ := by
  simp [dispatches, List.zip_append h.symm]

section Breach
variable {σ : Type} [Source σ]

/-- The last move is a tick in which the source broke its contract. At every tick before it a batch was drawn that had
as many items as it should have, and was dispatched; in it the source yielded `items`, fewer than the batch should
have had, and then none. -/
inductive Breach (config : Config) (source : σ) : List (Nat × Move) → Course → Fault → Prop where
  | intro {earlier now batches s items t u course} :
    Batch.Series config.rate source batches s →
    batches.length = (ticks earlier).length →
    course.calls.toList = dispatches config.timeout (ticks earlier) batches →
    Source.Yields s items t →
    items.length < Batch.wanted config.rate s →
    Source.next t = (none, u) →
    Breach config source (earlier ++ [(now, .tick)]) course (.sourceContract (Batch.claimed u))

end Breach

namespace Controller

variable {σ : Type}

/-- Only a tick draws and dispatches. -/
lemma Reaction.dispatches_nothing [Source σ] {c d : Controller σ} {now e} (h : Reaction c now e d) (he : e ≠ .tick) :
    d.calls = c.calls ∧ d.source = c.source := by
  cases h with
  | interrupt hp => rw [stop_of_running hp]; exact ⟨rfl, rfl⟩
  | completion => exact ⟨rfl, rfl⟩
  | deadline hp => rw [stop_of_running hp]; exact ⟨rfl, rfl⟩
  | report => exact ⟨rfl, rfl⟩
  | tick => exact absurd rfl he
  | lastTick => exact absurd rfl he

/-- What a run dispatched are whole batches that it drew from `source`, one at every tick. -/
structure Batched [Source σ] (plan : Plan) (source : σ) (instants : List Nat) (batches : List (List Item))
    (c : Controller σ) : Prop where
  drawn : Batch.Series plan.rate source batches c.source
  count : batches.length = instants.length
  calls : c.calls.toList = dispatches plan.timeout instants batches

/-- A run that draws a batch dispatches it whole. -/
lemma Batched.feed [Source σ] {plan : Plan} {source : σ} {instants batches now batch after} {c : Controller σ}
    (h : Batched plan source instants batches c) (hplan : c.plan = plan)
    (hdraw : Batch.draw c.plan.rate c.source = (.ok batch, after)) :
    Batched plan source (instants ++ [now]) (batches ++ [batch.toList]) (c.feed now batch after) := by
  obtain ⟨drawn, hitems, hyields, hlen⟩ := Batch.drawInto_ok hdraw
  have hbatch : batch.toList = drawn := by simp [hitems]
  rw [feed_eq, hbatch]
  refine ⟨?_, ?_, ?_⟩
  · apply h.drawn.snoc hyields
    rw [hlen, hplan]
  · simp [h.count]
  · rw [dispatches_snoc h.count, ← h.calls, ← hbatch]
    simp [hplan]

end Controller

namespace System
open Controller

variable {σ : Type} [Source σ]

/-- A move that is no tick draws and dispatches nothing. -/
lemma step_dispatches_nothing {s t : System σ} {now m} (hs : s.step now m = .ok t) (hm : m ≠ .tick) :
    t.controller.calls = s.controller.calls ∧ t.controller.source = s.controller.source := by
  cases step_inv hs with
  | same => exact ⟨rfl, rfl⟩
  | finish => exact ⟨rfl, rfl⟩
  | receive => exact ⟨rfl, rfl⟩
  | @signal m e d he hr hev =>
    apply hr.dispatches_nothing
    rintro rfl
    cases m with
    | tick => exact hm rfl
    | _ => cases hev

/-- A run that dispatches after a tick has drawn a batch in it and dispatched it. -/
lemma tick_inv {s t : System σ} {now} (hs : s.step now .tick = .ok t) (ht : t.controller.phase = .running) :
    ∃ batch source, Batch.draw s.controller.plan.rate s.controller.source = (.ok batch, source) ∧
      t.controller = (s.controller.feed now batch source).settle := by
  have hp := running_of_step hs ht
  obtain ⟨hn, _⟩ | ⟨d, hr, rfl⟩ := signal_cases hs
  · -- a run that dispatches does not ignore a tick
    rw [show s.controller.accepts .tick = true from Phase.isRunning_iff.mpr hp] at hn
    cases hn
  · cases hr with
    | @tick batch source _ hdraw => exact ⟨batch, source, hdraw, rfl⟩
    | lastTick => exact absurd ht (settle_stop_not_running (feed_running hp))

/-- As long as a run dispatches, it has drawn one whole batch at every tick, and has dispatched it. -/
theorem Leads.batched {plan : Plan} {source : σ} {started reporter deadline} {s : System σ} {moves}
    (hrun : (System.init (fresh plan source started reporter deadline)).Leads moves s)
    (hp : s.controller.phase = .running) : ∃ batches, Batched plan source (ticks moves) batches s.controller := by
  -- a run that dispatches at the end dispatched all along, so every tick among the moves drew its batch
  induction hrun with
  | nil => exact ⟨[], .nil, rfl, rfl⟩
  | @snoc moves t u now m hrun hs ih =>
    obtain ⟨batches, h⟩ := ih (running_of_step hs hp)
    by_cases hm : m = .tick
    · subst hm
      obtain ⟨batch, after, hdraw, hu⟩ := tick_inv hs hp
      have hbatched : Batched plan source (ticks moves ++ [now]) _ (t.controller.feed now batch after) :=
        h.feed hrun.frame.plan hdraw
      rw [ticks_snoc_tick, hu]
      exact ⟨_, hbatched.drawn, hbatched.count, hbatched.calls⟩
    · obtain ⟨hcalls, hsource⟩ := step_dispatches_nothing hs hm
      rw [ticks_snoc_of_ne hm]
      exact ⟨batches, hsource ▸ h.drawn, h.count, hcalls ▸ h.calls⟩

lemma Endures.leads {s t : System σ} {moves} (h : s.Endures moves t) : s.Leads moves t := by
  induction h with
  | nil => exact .nil
  | snoc _ _ hs _ ih => exact .snoc ih hs

omit [Source σ] in
/-- Room in the process is room below the top of every count. -/
lemma Fits.le_top {s : System σ} (h : s.Fits) : s.outstanding ≤ Count.top := Nat.le_trans h (by decide)

/-- In a process every operation is kept in its place. -/
theorem Endures.placed {s t : System σ} {moves} (h : s.Endures moves t) (h0 : Placed s) : Placed t := by
  induction h with
  | nil => exact h0
  | snoc _ _ hs hfits ih => exact ih.step hs hfits.le_top

/-- A run fails only in a breach, and not if its source is honest. -/
lemma Endures.breach {plan : Plan} {source : σ} {started reporter deadline} {s : System σ} {moves now m f}
    (hrun : (System.init (fresh plan source started reporter deadline)).Endures moves s)
    (hs : s.step now m = .error f) :
    Breach plan.toConfig source (moves ++ [(now, m)]) (.of s.controller (.refused f) #[]) f ∧
      ¬ Source.Honest source := by
  obtain ⟨rfl, hp, u, hdraw⟩ := (hrun.placed .init).step_fault hs
  obtain ⟨batches, hbatched⟩ := hrun.leads.batched hp
  rw [show s.controller.plan = plan from hrun.leads.frame.plan] at hdraw
  refine ⟨?_, fun hhonest => ?_⟩
  · obtain ⟨items, t, hyields, hlen, hnone, rfl⟩ := Batch.drawInto_error hdraw
    exact .intro hbatched.drawn hbatched.count hbatched.calls hyields hlen hnone
  · -- an honest source is in the state that its draws lead to, and from there yields the next batch
    obtain ⟨j, hj⟩ := hbatched.drawn.after_eq
    obtain ⟨_, hok, _⟩ := Batch.draw_of_honest hhonest plan.rate j
    rw [← hj, hdraw] at hok
    cases hok

end System

open Controller

/-- A run is refused for the first check of its configuration that fails, before anything has happened; otherwise it
fails only in a breach of its source's contract, whatever happens and in whatever order. Then it has dispatched the
whole batches of the ticks before, and nothing of the batch that could not be drawn. With a configuration that passes
every check, the run of an honest source never fails. -/
theorem run_fails_only_for_config_or_source {σ : Type} [Source σ] {config : Config} {source : σ} {hasListener : Bool}
    {started : Nat} {moves : List (Nat × Move)} {course : Course}
    (hrun : Runs config source hasListener started moves course) :
    (∀ f, config.firstFault? = some f → moves = [] ∧ course = .unstarted (.refused f)) ∧
    (∀ f, course.ending = .refused f →
      config.firstFault? = some f ∨ config.firstFault? = none ∧ Breach config source moves course f) ∧
    (config.firstFault? = none → Source.Honest source → ∀ f, course.ending ≠ .refused f) := by
  cases hrun with
  | @refused f hplan =>
    have hf := Config.plan_eq_error_iff.mp hplan
    rw [hf]
    refine ⟨fun g hg => ?_, fun g hg => ?_, nofun⟩
    · cases hg
      exact ⟨rfl, rfl⟩
    · cases hg
      exact .inl rfl
  | overflow hplan =>
    rw [Config.firstFault?_of_plan hplan]
    exact ⟨nofun, nofun, fun _ _ => nofun⟩
  | @failed plan c moves s now m f hplan hstart hendures _ hs =>
    rw [Config.firstFault?_of_plan hplan]
    obtain rfl := Config.plan_eq_ok_iff.mp hplan
    obtain ⟨reporter, deadline, _, _, rfl⟩ := start?_inv hstart
    obtain ⟨hbreach, hdishonest⟩ := hendures.breach hs
    refine ⟨nofun, fun g hg => ?_, fun _ hhonest => absurd hhonest hdishonest⟩
    cases hg
    exact .inr ⟨rfl, hbreach⟩
  | ended hplan =>
    rw [Config.firstFault?_of_plan hplan]
    exact ⟨nofun, nofun, fun _ _ => nofun⟩

/-- A source that does not keep its promise: it always says the same about what is left, and yields payloads of one byte as
long as it has any. -/
structure Claiming where
  claim : Remaining
  available : Nat
  issued : Nat

instance : Source Claiming where
  next c :=
    if c.issued < c.available then (some (.payload c.issued 1), { c with issued := c.issued + 1 }) else (none, c)
  remaining c := c.claim

/-- Two operations a tick. -/
def pairs : Plan := ⟨{ Config.default with rate := 2 }, by constructor <;> decide⟩

/-- A source that says five items are left for ever, and has three: the second batch of two cannot be drawn, and the
one item of it that was is not dispatched. -/
theorem second_batch_breaks_contract :
    ∃ course, Runs { Config.default with rate := 2 } (Claiming.mk (.finite 5) 3 0) true 0
        [(0, .tick), (1000000000, .tick)] course ∧
      course.ending = .refused (.sourceContract 5) ∧
      course.calls.toList.map Call.item = [.payload 0 1, .payload 1 1] ∧
      Breach { Config.default with rate := 2 } (Claiming.mk (.finite 5) 3 0)
        [(0, .tick), (1000000000, .tick)] course (.sourceContract 5) := by
  obtain ⟨course, hrun, hending, hcalls⟩ : ∃ course,
      Runs { Config.default with rate := 2 } (Claiming.mk (.finite 5) 3 0) true 0
        ([] ++ [(0, .tick)] ++ [(1000000000, .tick)]) course ∧
      course.ending = .refused (.sourceContract 5) ∧
      course.calls.toList.map Call.item = [.payload 0 1, .payload 1 1] := by
    have hplan : pairs.toConfig.plan = .ok pairs := Config.plan_eq_ok_iff.mpr rfl
    refine ⟨_, .failed hplan rfl (.snoc (.nil ?_) ?_ rfl ?_) ?_ rfl, rfl, rfl⟩
    · show (0 : Nat) ≤ _
      exact Nat.zero_le _
    · decide +kernel
    · show (2 : Nat) ≤ _
      decide
    · decide +kernel
  obtain ⟨_, hrefused, _⟩ := run_fails_only_for_config_or_source hrun
  obtain hf | ⟨_, hbreach⟩ := hrefused _ hending
  · cases hf
  · exact ⟨course, hrun, hending, hcalls, hbreach⟩

end Cadence.Run
