import Cadence.Benchmark.Collapse
import Cadence.Proofs.Benchmark.Performance
import Cadence.Proofs.CommandLine.Accepted

/-!
# Which commands are taken down

A command is taken down exactly if it is an upload that is refused memory for a payload that its run gets to
(`collapse?_isSome_iff`). A run that nothing stops gets to all of its payloads.
-/

namespace Cadence.Benchmark

open CommandLine (Command)

/-- An upload is refused memory for one of its payloads, and its run gets to that one: nothing ever stops it, or the run that
it would take dispatches more than that. -/
inductive Starved (tree : FileTree) (s : Surroundings) : Command → Prop where
  | upload {common size count path first} :
    ¬ Unready s.idna (.upload common size count path) tree →
    size ≤ largestBlock →
    s.memory size = some first →
    (¬ Endless s (.upload common size count path) → ∃ course,
      (perform (.upload common size count path) tree s).course = some course ∧ first < course.calls.size) →
    Starved tree s (.upload common size count path)

variable {c : Command} {tree : FileTree} {s : Surroundings} {p : Prepared}

/-- Only uploads are refused memory: the size of their payloads can be, and there is none for one of them. -/
lemma refusal?_eq_some_iff (hp : prepare s.idna c tree s.chance = .ok p) {first bytes : Nat} :
    s.refusal? p.source = some (first, bytes) ↔ (∃ common count path, c = .upload common bytes count path) ∧
      bytes ≤ largestBlock ∧ s.memory bytes = some first := by
  cases hl : c.listing? with
  | some l =>
    obtain ⟨text, _, hsource⟩ := prepare_listing_inv hp hl
    rw [hsource]
    refine ⟨nofun, ?_⟩
    rintro ⟨⟨common, count, path, rfl⟩, _⟩
    cases hl
  | none =>
    obtain ⟨common, size, count, path, rfl⟩ := upload_of_listing? hl
    rw [prepare_upload_inv hp]
    constructor
    · intro h
      dsimp only [Surroundings.refusal?] at h
      split at h
      · cases h
      · next hsize =>
        obtain ⟨i, hi, heq⟩ := Option.map_eq_some_iff.mp h
        cases heq
        exact ⟨⟨_, _, _, rfl⟩, Nat.not_lt.mp hsize, hi⟩
    · rintro ⟨⟨_, _, _, hc⟩, hsize, hmemory⟩
      cases hc
      simp [Surroundings.refusal?, Nat.not_lt.mpr hsize, hmemory]

/-- A run that nothing stops gets to every operation, any other one to those that it dispatches. -/
lemma gets_iff (hp : prepare s.idna c tree s.chance = .ok p) (hvalid : c.common.config.Valid)
    (hclock : Representable c) (hfew : (p.run c s).calls.size ≤ Count.top) {i : Nat} :
    gets (p.run c s) i = true ↔ (¬ Endless s c → i < (p.run c s).calls.size) := by
  by_cases hstops : Endless s c
  · rw [gets, Prepared.endless hp hvalid hclock hstops]
    exact ⟨fun _ h => absurd hstops h, fun _ => rfl⟩
  · obtain ⟨summary, hended⟩ := Prepared.summed hp hvalid hclock hstops hfew
    rw [gets, hended]
    exact ⟨fun h _ => of_decide_eq_true h, fun h => decide_eq_true (h hstops)⟩

/-- A command that is prepared is taken down if it is refused memory for an operation that its run gets to. -/
lemma collapse?_of_prepared (hp : prepare s.idna c tree s.chance = .ok p) (course : Run.Course) :
    (collapse? c tree s (some course)).isSome = true ↔
      ∃ first bytes, s.refusal? p.source = some (first, bytes) ∧ gets course first = true := by
  simp only [collapse?, hp]
  cases s.refusal? p.source with
  | none => simp
  | some refusal =>
    obtain ⟨first, bytes⟩ := refusal
    cases hgets : gets course first <;> simp [hgets]

/-- A command that is fit for a run is taken down exactly if it is refused memory for a payload that its run gets to. -/
theorem collapse?_isSome_iff (hfit : c.Fit) (hclock : Representable c)
    (hfew : ∀ course, (perform c tree s).course = some course → course.calls.size ≤ Count.top) :
    (collapse? c tree s (perform c tree s).course).isSome = true ↔ Starved tree s c := by
  have hprepares := prepares s.idna tree s.chance fun _ _ _ _ hc => (hfit.payloads _ _ _ _ hc).1
  cases hp : prepare s.idna c tree s.chance with
  | error f =>
    rw [hp] at hprepares
    cases hprepares with
    | unready hunready =>
      have hnone : collapse? c tree s (perform c tree s).course = none := by simp only [collapse?, hp]
      rw [hnone]
      refine ⟨nofun, fun h => ?_⟩
      cases h with
      | upload hready => exact absurd hunready hready
  | ok p =>
    rw [hp] at hprepares
    cases hprepares with
    | ready hready =>
      have hcourse := (Prepared.comes hp hfit.config).course_eq
      have hgets := fun i => gets_iff hp hfit.config hclock (hfew _ hcourse) (i := i)
      rw [hcourse, collapse?_of_prepared hp]
      constructor
      · rintro ⟨first, bytes, hrefusal, hgot⟩
        obtain ⟨⟨_, _, _, rfl⟩, hsize, hmemory⟩ := (refusal?_eq_some_iff hp).mp hrefusal
        exact .upload hready hsize hmemory fun hstops => ⟨_, hcourse, (hgets first).mp hgot hstops⟩
      · intro h
        cases h with
        | @upload _ bytes _ _ first _ hsize hmemory hreached =>
          refine ⟨first, bytes, (refusal?_eq_some_iff hp).mpr ⟨⟨_, _, _, rfl⟩, hsize, hmemory⟩, (hgets first).mpr ?_⟩
          intro hstops
          obtain ⟨course, hcourse', hless⟩ := hreached hstops
          obtain rfl := Option.some.inj (hcourse.symm.trans hcourse')
          exact hless

end Cadence.Benchmark
