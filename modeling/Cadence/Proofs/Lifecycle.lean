import Cadence.Lifecycle.History
import Mathlib.Data.List.Induction

/-!
# What a history of requests decides

How far a run is and what it answers follow from the requests alone, in whatever order they come. `Performs` says what
one request can do; `Traced` is what a history and the machines after it have to do with each other, which every request
keeps.

* `history_decides_lifecycle`: the first stop is the one that counts, and the end is told once.
-/

namespace Cadence

/-- Whether the run has ended. -/
def Phase.isTerminated : Phase → Bool
  | terminated _ => true
  | _ => false

/-- How a phase can go on. -/
inductive Phase.Moves : Phase → Phase → Prop where
  | stay {p} : Moves p p
  | drain {c} : Moves running (draining c)
  | terminate {c} : Moves (draining c) (terminated c)

namespace Lifecycle

/-- What a request can do to the machines, and what is said to it. -/
inductive Performs (l : Lifecycle) : Request → Lifecycle → Answer → Prop where
  | dispatched : Performs l .dispatched { l with inFlight := l.inFlight.dispatch } .done
  | completed {n} : l.inFlight.active = n + 1 →
      Performs l .completed { l with inFlight := { l.inFlight with active := n } } .done
  | underflow : l.inFlight.active = 0 → Performs l .completed l (.refused .noneInFlight)
  | close : Performs l .close { l with inFlight := l.inFlight.close } .done
  | drained {c} : l.phase = .running → Performs l (.drain c) ⟨l.inFlight.close, .draining c⟩ (.told true)
  | stoppedBefore {c} : l.phase ≠ .running → Performs l (.drain c) l (.told false)
  | terminated {c} : l.phase = .draining c → l.inFlight.isComplete = true →
      Performs l .terminate { l with phase := .terminated c } (.told true)
  | goesOn : (∀ c, l.phase = .draining c → l.inFlight.isComplete = false) → Performs l .terminate l (.told false)

lemma perform_inv (l : Lifecycle) (r : Request) : Performs l r (l.perform r).1 (l.perform r).2 := by
  obtain ⟨⟨active, closed⟩, phase⟩ := l
  cases r with
  | dispatched => exact .dispatched
  | completed =>
    cases active with
    | zero => exact .underflow rfl
    | succ n => exact .completed rfl
  | close => exact .close
  | drain c =>
    cases phase with
    | running => exact .drained rfl
    | draining => exact .stoppedBefore (by simp)
    | terminated => exact .stoppedBefore (by simp)
  | terminate =>
    cases phase with
    | running => exact .goesOn (by simp)
    | draining c =>
      cases h : InFlight.isComplete ⟨active, closed⟩ with
      | true =>
        simp only [perform, Phase.terminate?, h]
        exact .terminated rfl h
      | false =>
        simp only [perform, Phase.terminate?, h]
        exact .goesOn fun _ _ => h
    | terminated => exact .goesOn (by simp)

lemma Performs.moves {l l' : Lifecycle} {r a} (h : Performs l r l' a) : l.phase.Moves l'.phase := by
  cases h with
  | drained hp =>
    rw [hp]
    exact .drain
  | terminated hp =>
    rw [hp]
    exact .terminate
  | _ => exact .stay

lemma after_snoc (rs : List Request) (r : Request) : after (rs ++ [r]) = ((after rs).perform r).1 := by
  simp [after, run, continued]

lemma transcript_snoc (rs : List Request) (r : Request) :
    transcript (rs ++ [r]) = transcript rs ++ [(r, answer rs r)] := by
  simp [transcript, answer, after, run, continued]

/-- The cause that a request gives for a stop. -/
def Request.cause? : Request → Option StopCause
  | .drain c => some c
  | _ => none

/-- Whether no dispatch is expected after a request. -/
def Request.closes : Request → Bool
  | .close | .drain _ => true
  | _ => false

/-- Whether a request stopped the run. -/
def stops : Request × Answer → Bool
  | (.drain _, .told true) => true
  | _ => false

/-- The first cause that was given for a stop. -/
def firstCause? (rs : List Request) : Option StopCause := rs.findSome? Request.cause?

/-- A stop was asked for, and nothing is in flight. -/
def Ripe (rs : List Request) : Prop := (firstCause? rs).isSome ∧ (after rs).inFlight.active = 0

/-- The end was asked for at a moment that was ripe for it. -/
def Settled (rs : List Request) : Prop := ∃ before later, rs = before ++ .terminate :: later ∧ Ripe before

lemma settled_nil : ¬ Settled [] := by
  rintro ⟨before, later, h, _⟩
  simp at h

lemma settled_snoc {rs : List Request} {r : Request} :
    Settled (rs ++ [r]) ↔ Settled rs ∨ r = .terminate ∧ Ripe rs := by
  constructor
  · rintro ⟨before, later, h, hripe⟩
    rcases List.eq_nil_or_concat later with rfl | ⟨later, last, rfl⟩
    · obtain ⟨rfl, hr⟩ := List.append_inj' h rfl
      exact .inr ⟨by simpa using hr, hripe⟩
    · rw [List.concat_eq_append, ← List.cons_append, ← List.append_assoc] at h
      obtain ⟨rfl, _⟩ := List.append_inj' h rfl
      exact .inl ⟨before, later, rfl, hripe⟩
  · rintro (⟨before, later, rfl, hripe⟩ | ⟨rfl, hripe⟩)
    · exact ⟨before, later ++ [r], by simp, hripe⟩
    · exact ⟨rs, [], rfl, hripe⟩

lemma firstCause?_snoc (rs : List Request) (r : Request) :
    firstCause? (rs ++ [r]) = (firstCause? rs).or r.cause? := by
  simp [firstCause?, List.findSome?_append]

lemma any_closes_snoc (rs : List Request) (r : Request) :
    (rs ++ [r]).any Request.closes = (rs.any Request.closes || r.closes) := by simp

lemma closes_of_cause {rs : List Request} (h : (firstCause? rs).isSome = true) : rs.any Request.closes = true := by
  obtain ⟨c, hc⟩ := Option.isSome_iff_exists.mp h
  obtain ⟨r, hr, hrc⟩ := List.exists_of_findSome?_eq_some hc
  refine List.any_eq_true.mpr ⟨r, hr, ?_⟩
  cases r with
  | drain => rfl
  | _ => cases hrc

lemma any_closes_iff (rs : List Request) : rs.any Request.closes = true ↔ .close ∈ rs ∨ ∃ c, .drain c ∈ rs := by
  rw [List.any_eq_true]
  constructor
  · rintro ⟨r, hr, hcloses⟩
    cases r with
    | close => exact .inl hr
    | drain c => exact .inr ⟨c, hr⟩
    | _ => cases hcloses
  · rintro (hr | ⟨c, hr⟩)
    · exact ⟨_, hr, rfl⟩
    · exact ⟨_, hr, rfl⟩

/-- What a history has to do with the machines after it and with what was said. -/
structure Traced (rs : List Request) (l : Lifecycle) (t : List (Request × Answer)) : Prop where
  cause : l.phase.cause? = firstCause? rs
  closed : l.inFlight.closed = rs.any Request.closes
  terminated : l.phase.isTerminated = true ↔ Settled rs
  stopped : t.countP stops = (l.phase.cause?.isSome).toNat
  ended : t.count (.terminate, .told true) = (l.phase.isTerminated).toNat

namespace Traced

variable {rs : List Request} {l l' : Lifecycle} {t : List (Request × Answer)} {r : Request} {a : Answer}

lemma fresh : Traced [] fresh [] := ⟨rfl, rfl, ⟨nofun, fun h => absurd h settled_nil⟩, rfl, rfl⟩

lemma cause_isSome (h : Traced rs l t) : (firstCause? rs).isSome = true ↔ l.phase ≠ .running := by
  rw [← h.cause]
  cases l.phase <;> simp [Phase.cause?]

lemma closed_of_stopped (h : Traced rs l t) (hp : l.phase ≠ .running) : l.inFlight.closed = true :=
  h.closed.trans (closes_of_cause (h.cause_isSome.mpr hp))

lemma isComplete_iff (h : Traced rs l t) (hp : l.phase ≠ .running) :
    l.inFlight.isComplete = true ↔ l.inFlight.active = 0 := by
  simp [InFlight.isComplete, h.closed_of_stopped hp]

/-- A run that was stopped and has nothing in flight goes on only if it has ended already. -/
lemma settled_of_goesOn (h : Traced rs l t) (hripe : l.phase ≠ .running ∧ l.inFlight.active = 0)
    (hp : ∀ c, l.phase = .draining c → l.inFlight.isComplete = false) : Settled rs := by
  obtain ⟨hstopped, hactive⟩ := hripe
  cases hq : l.phase with
  | running => exact absurd hq hstopped
  | draining c =>
    rw [(h.isComplete_iff hstopped).mpr hactive] at hp
    cases hp c hq
  | terminated c =>
    apply h.terminated.mp
    rw [hq]
    rfl

/-- A request that leaves the phase as it is, because there is no reason for another one. -/
lemma same (h : Traced rs l t) (hphase : l'.phase = l.phase) (hcause : r.cause? = none ∨ l.phase ≠ .running)
    (hclosed : l'.inFlight.closed = (l.inFlight.closed || r.closes))
    (hsettled : r = .terminate → Ripe rs → Settled rs) (hstops : stops (r, a) = false)
    (hends : (r, a) ≠ (.terminate, .told true)) : Traced (rs ++ [r]) l' (t ++ [(r, a)]) where
  cause := by
    rw [hphase, h.cause, firstCause?_snoc]
    rcases hcause with hnone | hp
    · rw [hnone, Option.or_none]
    · obtain ⟨c, hc⟩ := Option.isSome_iff_exists.mp (h.cause_isSome.mpr hp)
      rw [hc, Option.some_or]
  closed := by rw [hclosed, any_closes_snoc, h.closed]
  terminated := by
    rw [hphase, h.terminated, settled_snoc]
    exact ⟨.inl, fun hs => hs.elim id fun hr => hsettled hr.1 hr.2⟩
  stopped := by
    rw [hphase, ← h.stopped]
    simp [List.countP_append, hstops]
  ended := by
    rw [hphase, ← h.ended]
    simp [List.count_append, hends]

/-- The first stop. -/
lemma drain {c : StopCause} (h : Traced rs l t) (hq : l.phase = .running) :
    Traced (rs ++ [.drain c]) ⟨l.inFlight.close, .draining c⟩ (t ++ [(.drain c, .told true)]) where
  cause := by
    have hnone : firstCause? rs = none := by rw [← h.cause, hq]; rfl
    rw [firstCause?_snoc, hnone]
    rfl
  closed := by
    rw [any_closes_snoc]
    exact (Bool.or_true _).symm
  terminated := by
    have hsettled : ¬ Settled rs := by rw [← h.terminated, hq]; exact nofun
    rw [settled_snoc]
    exact ⟨nofun, fun hs => hs.elim (absurd · hsettled) nofun⟩
  stopped := by
    rw [List.countP_append, h.stopped, hq]
    rfl
  ended := by
    rw [List.count_append, h.ended, hq]
    rfl

/-- The end, at a moment that is ripe for it. -/
lemma terminate {c : StopCause} (h : Traced rs l t) (hq : l.phase = .draining c) (hr : Ripe rs) :
    Traced (rs ++ [.terminate]) { l with phase := .terminated c } (t ++ [(.terminate, .told true)]) where
  cause := by
    have hcause : firstCause? rs = some c := by rw [← h.cause, hq]; rfl
    rw [firstCause?_snoc, hcause]
    rfl
  closed := by
    rw [any_closes_snoc, ← h.closed]
    exact (Bool.or_false _).symm
  terminated := by
    rw [settled_snoc]
    exact ⟨fun _ => .inr ⟨rfl, hr⟩, fun _ => rfl⟩
  stopped := by
    rw [List.countP_append, h.stopped, hq]
    rfl
  ended := by
    rw [List.count_append, h.ended, hq]
    rfl

lemma performs (h : Traced rs l t) (hripe : Ripe rs ↔ (firstCause? rs).isSome = true ∧ l.inFlight.active = 0)
    (hp : Performs l r l' a) : Traced (rs ++ [r]) l' (t ++ [(r, a)]) := by
  rw [h.cause_isSome] at hripe
  cases hp with
  | dispatched => exact h.same rfl (.inl rfl) (Bool.or_false _).symm nofun rfl nofun
  | completed hactive => exact h.same rfl (.inl rfl) (Bool.or_false _).symm nofun rfl nofun
  | underflow hactive => exact h.same rfl (.inl rfl) (Bool.or_false _).symm nofun rfl nofun
  | close => exact h.same rfl (.inl rfl) (Bool.or_true _).symm nofun rfl nofun
  | stoppedBefore hp =>
    refine h.same rfl (.inr hp) ?_ nofun rfl nofun
    rw [h.closed_of_stopped hp, Bool.true_or]
  | goesOn hp =>
    refine h.same rfl (.inl rfl) (Bool.or_false _).symm (fun _ hr => ?_) rfl nofun
    exact h.settled_of_goesOn (hripe.mp hr) hp
  | drained hq => exact h.drain hq
  | terminated hq hcomplete =>
    have hstopped : l.phase ≠ .running := by simp [hq]
    exact h.terminate hq (hripe.mpr ⟨hstopped, (h.isComplete_iff hstopped).mp hcomplete⟩)

end Traced

/-- Whatever was asked of the machines, a history and its answers account for where they are. -/
theorem traced (rs : List Request) : Traced rs (after rs) (transcript rs) := by
  induction rs using List.reverseRecOn with
  | nil => exact .fresh
  | append_singleton rs r ih =>
    rw [after_snoc, transcript_snoc]
    exact ih.performs Iff.rfl (perform_inv _ r)

lemma Performs.balance {l l' : Lifecycle} {t : List (Request × Answer)} {r a} {n : Nat} (hp : Performs l r l' a)
    (hroom : n + [r].count .dispatched ≤ Count.top) (h : l.inFlight.active + t.count (.completed, .done) = n) :
    l'.inFlight.active + (t ++ [(r, a)]).count (.completed, .done) = n + [r].count .dispatched := by
  rw [List.count_append]
  cases hp with
  | dispatched =>
    have hnext : Count.next l.inFlight.active = l.inFlight.active + 1 := by
      apply Count.next_eq
      simp at hroom
      omega
    simp only [InFlight.dispatch, hnext]
    simp
    omega
  | completed hactive =>
    simp
    omega
  | _ => simpa [InFlight.close] using h

/-- What is in flight and what was completed add up to what was dispatched. -/
theorem active_add_completed {rs : List Request} (h : rs.count .dispatched ≤ Count.top) :
    (after rs).inFlight.active + (transcript rs).count (.completed, .done) = rs.count .dispatched := by
  induction rs using List.reverseRecOn with
  | nil => rfl
  | append_singleton rs r ih =>
    rw [List.count_append] at h ⊢
    rw [after_snoc, transcript_snoc]
    exact (perform_inv (after rs) r).balance h (ih (by omega))

lemma perform_answer (rs : List Request) (r : Request) : Performs (after rs) r (after (rs ++ [r])) (answer rs r) := by
  rw [after_snoc]
  exact perform_inv (after rs) r

lemma Performs.drain_inv {l l' : Lifecycle} {c a} (h : Performs l (.drain c) l' a) : a = .told l.phase.isRunning := by
  cases h with
  | drained hp =>
    rw [hp]
    rfl
  | stoppedBefore hp => rw [Bool.eq_false_iff.mpr (mt Phase.isRunning_iff.mp hp)]

lemma Performs.completed_inv {l l' : Lifecycle} {a} (h : Performs l .completed l' a) :
    l.inFlight.active = 0 ∧ a = .refused .noneInFlight ∧ l' = l ∨ l.inFlight.active ≠ 0 ∧ a = .done := by
  cases h with
  | completed hactive => exact .inr ⟨by omega, rfl⟩
  | underflow hactive => exact .inl ⟨hactive, rfl, rfl⟩

/-- The end is told at a moment that is ripe for it, unless it came before. -/
lemma Traced.terminate_inv {rs : List Request} {l l' : Lifecycle} {t a} (h : Traced rs l t)
    (hripe : Ripe rs ↔ (firstCause? rs).isSome = true ∧ l.inFlight.active = 0) (hp : Performs l .terminate l' a) :
    a = .told true ∧ Ripe rs ∧ ¬ Settled rs ∨ a = .told false ∧ ¬ (Ripe rs ∧ ¬ Settled rs) := by
  rw [h.cause_isSome] at hripe
  cases hp with
  | terminated hq hcomplete =>
    have hstopped : l.phase ≠ .running := by simp [hq]
    refine .inl ⟨rfl, hripe.mpr ⟨hstopped, (h.isComplete_iff hstopped).mp hcomplete⟩, ?_⟩
    rw [← h.terminated, hq]
    exact nofun
  | goesOn hp =>
    refine .inr ⟨rfl, ?_⟩
    rintro ⟨hr, hsettled⟩
    exact hsettled (h.settled_of_goesOn (hripe.mp hr) hp)

/-- What a history of requests decides: how far the run is and why it stopped, that the first stop alone is told so and
so is the end, at the first attempt that comes after a stop and finds nothing in flight; and what is in flight. -/
theorem history_decides_lifecycle (rs : List Request) :
    (∀ r, (after rs).phase.Moves (after (rs ++ [r])).phase) ∧
    (after rs).phase.cause? = firstCause? rs ∧
    (∀ c, answer rs (.drain c) = .told (firstCause? rs).isNone) ∧
    (transcript rs).countP stops ≤ 1 ∧
    (answer rs .terminate = .told true ∧ Ripe rs ∧ ¬ Settled rs ∨
      answer rs .terminate = .told false ∧ ¬ (Ripe rs ∧ ¬ Settled rs)) ∧
    (transcript rs).count (.terminate, .told true) ≤ 1 ∧
    (firstCause? rs = none → (after rs).phase = .running) ∧
    (rs.count .dispatched ≤ Count.top →
      (after rs).inFlight.active + (transcript rs).count (.completed, .done) = rs.count .dispatched) ∧
    (answer rs .completed = if (after rs).inFlight.active = 0 then .refused .noneInFlight else .done) ∧
    ((after rs).inFlight.active = 0 → after (rs ++ [.completed]) = after rs) ∧
    ((after rs).inFlight.isComplete = true ↔
      (after rs).inFlight.active = 0 ∧ (.close ∈ rs ∨ ∃ c, .drain c ∈ rs)) := by
  have h := traced rs
  have hrunning : (firstCause? rs).isNone = (after rs).phase.isRunning := by
    rw [← h.cause]
    cases (after rs).phase <;> rfl
  have hcompleted := (perform_answer rs .completed).completed_inv
  refine ⟨fun r => (perform_answer rs r).moves, h.cause, fun c => ?_, ?_, ?_, ?_, ?_, active_add_completed, ?_, ?_, ?_⟩
  · rw [hrunning]
    exact (perform_answer rs (.drain c)).drain_inv
  · rw [h.stopped]
    exact Bool.toNat_le _
  · exact h.terminate_inv Iff.rfl (perform_answer rs .terminate)
  · rw [h.ended]
    exact Bool.toNat_le _
  · intro hnone
    rw [hnone] at hrunning
    exact Phase.isRunning_iff.mp hrunning.symm
  · rcases hcompleted with ⟨hactive, hanswer, _⟩ | ⟨hactive, hanswer⟩
    · rw [if_pos hactive, hanswer]
    · rw [if_neg hactive, hanswer]
  · intro hactive
    rcases hcompleted with ⟨_, _, hsame⟩ | ⟨hne, _⟩
    · exact hsame
    · exact absurd hactive hne
  · rw [InFlight.isComplete, h.closed, Bool.and_eq_true, beq_iff_eq, and_comm, any_closes_iff]

/-- Requests in a strange order: a result without an operation, the end asked for at every moment, a second stop, and an
operation that is dispatched after the end. -/
private def unruly : List Request :=
  [.completed, .dispatched, .close, .terminate, .drain .interrupted, .drain .exhausted, .terminate, .completed,
    .terminate, .terminate, .dispatched]

theorem unruly_history_ends_once :
    unruly.count .dispatched ≤ Count.top ∧ (after unruly).phase.cause? = some .interrupted ∧
      (after unruly).inFlight.active + (transcript unruly).count (.completed, .done) = unruly.count .dispatched ∧
      (transcript unruly).filter (fun e => e.2 = .told true)
        = [(.drain .interrupted, .told true), (.terminate, .told true)] := by
  have hroom : unruly.count .dispatched ≤ Count.top := by decide
  obtain ⟨_, hcause, _, _, _, _, _, hactive, _⟩ := history_decides_lifecycle unruly
  exact ⟨hroom, hcause, hactive hroom, by decide⟩

end Lifecycle
end Cadence
