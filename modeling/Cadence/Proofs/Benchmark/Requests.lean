import Cadence.Proofs.Benchmark.Conclusion
import Cadence.Proofs.Benchmark.Performance
import Cadence.Proofs.CommandLine.Accepted
import Cadence.Proofs.Workload.Shuffle

/-!
# Requests of a command that works through a list

A run that neither a deadline nor an interrupt stops goes on until nothing is left, and has then dispatched every item
of its source, in order (`Paced.exhausted`, `Fed.items_eq`). So a command that works through a list asks for each key as
often as it is in the list (`every_listed_key_is_requested_once`).
-/

namespace Cadence

namespace Run
open Controller

variable {σ : Type} [Source σ] {env : Environment} {plan : Plan} {source : σ} {k n : Nat} {c : Controller σ}

/-- Without an interrupt and a deadline, a run stops because its source is exhausted, and has dispatched all of it. -/
lemma Controller.Paced.exhausted (h : Paced env plan none source k c) (hinterrupt : env.interrupt = none)
    (hfinite : Source.remaining source = .finite n) (ht : c.isTerminated = true) :
    c.phase.cause? = some .exhausted ∧ c.calls.size = n := by
  obtain ⟨cause, hphase⟩ := isTerminated_iff.mp ht
  have hcause : c.phase.cause? = some cause := by rw [hphase]; rfl
  obtain ⟨_, _, hhalted⟩ := h.halted cause hcause
  cases hhalted with
  | interrupted hi => cases hinterrupt.symm.trans hi
  | deadlineReached hd => cases hd
  | exhausted _ hnone =>
    refine ⟨hcause, ?_⟩
    rw [h.size_eq, hfinite, drawn]
    rw [hfinite] at hnone
    exact Remaining.limit_of_not_exceeds hnone

/-- A run that has dispatched as many operations as there are keys has dispatched the keys in order. -/
lemma Controller.Fed.items_eq {deadline : Option Nat} {keys : Array String} {c : Controller Workload}
    (h : Fed env plan deadline (Workload.keys (.ofArray keys)) k c) (hsize : c.calls.size = keys.size) :
    c.calls.toList.map Call.item = keys.toList.map Item.key := by
  apply List.ext_getElem?
  intro i
  rw [List.getElem?_map, List.getElem?_map, Array.getElem?_toList, Array.getElem?_toList]
  by_cases hi : i < c.calls.size
  · rw [h.calls_eq i hi, callAt, Workload.item?_keys]
    cases keys[i]? <;> rfl
  · rw [Array.getElem?_eq_none (Nat.le_of_not_lt hi), Array.getElem?_eq_none (by omega)]
    rfl

end Run

namespace Benchmark
open CommandLine (Command Listing)

/-- The keys in the order of a listing. -/
def arranged (chance : Chance) (l : Listing) (keys : List String) : List String :=
  if l.noShuffle then keys
  else (Workload.shuffle keys.toArray ((l.seed.map UInt64.ofNat).getD chance.seed)).toList

variable {chance : Chance} {l : Listing} {keys : List String}

lemma arrange_eq : arrange chance l keys.toArray = .ofArray (arranged chance l keys).toArray := by
  unfold arrange arranged
  split
  · rfl
  · cases l.seed <;> rfl

/-- Whatever the order, each key is there as often as before. -/
lemma arranged_perm : (arranged chance l keys).Perm keys := by
  unfold arranged
  split
  · exact .refl _
  · exact Workload.shuffle_perm keys.toArray _

/-- With a seed, the order is that of the places, which the seed and the number of the keys fix. -/
lemma arranged_of_seed {seed : Nat} (hshuffle : l.noShuffle = false) (hseed : l.seed = some seed) :
    arranged chance l keys = (Workload.places keys.length (UInt64.ofNat seed)).filterMap fun i => keys[i]? := by
  unfold arranged
  rw [hshuffle, hseed, if_neg Bool.false_ne_true, Option.map_some, Option.getD_some, Workload.shuffle_eq_places]
  simp

variable {c : Command} {tree : FileTree} {s : Surroundings} {text : String}

/-- A command that works through a list can begin if its file can be read and its address is one of the web. -/
lemma prepared_of_readable {u : Url} (hl : c.listing? = some l) (ht : tree.readText l.cids = .ok text)
    (hbase : Url.parse s.idna c.target = .ok (.web u)) : ∃ p, prepare s.idna c tree s.chance = .ok p := by
  have hprepares := prepares (c := c) s.idna tree s.chance fun common size count path hc => by subst hc; cases hl
  cases hp : prepare s.idna c tree s.chance with
  | ok p => exact ⟨p, rfl⟩
  | error f =>
    rw [hp] at hprepares
    cases hprepares with
    | unready hunready =>
      cases hunready with
      | list hl' he =>
        cases hl.symm.trans hl'
        cases ht.symm.trans he
      | base he => cases hbase.symm.trans he
      | scheme he => cases hbase.symm.trans he

/-- A command with keys to work through that nothing else stops asks for them in their order, and is summed up when
nothing is left. -/
lemma Prepared.run_exhausts {p : Prepared} {asked : List String} (hp : prepare s.idna c tree s.chance = .ok p)
    (hvalid : c.common.config.Valid) (hsource : p.source = .keys (.ofArray asked.toArray))
    (hreport : c.common.reportInterval.nanos < Clock.limit) (hduration : c.common.duration = none)
    (hinterrupt : s.interrupt = none) (hstops : ¬ Endless s c) (hfew : asked.length ≤ Count.top) :
    ∃ summary, (p.run c s).ending = .summed summary ∧
      (p.run c s).calls.toList.map Run.Call.item = asked.map Item.key ∧
      summary.cause = .exhausted ∧ summary.snapshot.sent = asked.length := by
  have hclock : Representable c := ⟨hreport, fun d hd => by cases hduration.symm.trans hd⟩
  have hremaining : Source.remaining p.source = .finite asked.length := by
    rw [hsource]
    rfl
  have hcalls : (p.run c s).calls.size ≤ Count.top :=
    Nat.le_trans (Run.simulate_calls_le (Prepared.fresh hp).honest hremaining) hfew
  obtain ⟨deadline, n, k, t, hdeadline, hsound, hledger, hended, _, hrun⟩ :=
    Prepared.run_ends hp hvalid hclock hstops hcalls
  obtain rfl : deadline = none := by
    rw [Run.deadline?_inv hdeadline]
    exact congrArg (Option.map Duration.nanos) hduration
  obtain ⟨hcause, hsize⟩ := hsound.paced.exhausted hinterrupt hremaining hended
  have hfed := hsound.paced.toFed
  rw [hsource] at hfed
  rw [hrun]
  refine ⟨t.controller.summary t.now, rfl, hfed.items_eq hsize, ?_, hledger.sent.trans hsize⟩
  show t.controller.phase.cause?.getD .exhausted = .exhausted
  rw [hcause]
  rfl

/-- A command that works through a list, accepted from its words and stopped by nothing else, asks for each key in its
file as often as it is on a line: in the order of the file without a shuffle, and with a seed in the order that the seed
and the number of the lines fix. It stops because nothing is left, and the summary counts the lines. The time between
reports has to be one that the clock can represent: a run sets the instant of its first report before it does anything,
so it does not even begin otherwise. -/
theorem every_listed_key_is_requested_once {api : String} {words : List String} {u : Url}
    (hcommand : CommandLine.command api words = .ok c) (hl : c.listing? = some l)
    (ht : tree.readText l.cids = .ok text) (hbase : Url.parse s.idna c.target = .ok (.web u))
    (hduration : c.common.duration = none) (hinterrupt : s.interrupt = none)
    (hreport : c.common.reportInterval.nanos < Clock.limit) (hfew : (Identifiers.ofText text).length ≤ Count.top) :
    ∃ course summary asked, (perform c tree s).course = some course ∧ course.ending = .summed summary ∧
      (perform c tree s).exit = some .success ∧
      course.calls.toList.map Run.Call.item = asked.map Item.key ∧
      asked.Perm (Identifiers.ofText text) ∧
      (l.noShuffle = true → asked = Identifiers.ofText text) ∧
      (∀ seed, l.noShuffle = false → l.seed = some seed →
        asked = (Workload.places (Identifiers.ofText text).length (UInt64.ofNat seed)).filterMap
          fun i => (Identifiers.ofText text)[i]?) ∧
      summary.cause = .exhausted ∧ summary.snapshot.sent = (Identifiers.ofText text).length := by
  have hfit := CommandLine.command_fit hcommand
  have hstops : ¬ Endless s c := by
    intro h
    cases h
    cases hl
  obtain ⟨p, hp⟩ := prepared_of_readable (s := s) hl ht hbase
  obtain ⟨text', ht', hsource⟩ := prepare_listing_inv hp hl
  cases ht.symm.trans ht'
  rw [arrange_eq] at hsource
  generalize Identifiers.ofText text = keys at hsource hfew ⊢
  have hperm : (arranged s.chance l keys).Perm keys := arranged_perm
  have hlength : (arranged s.chance l keys).length = keys.length := hperm.length_eq
  rw [← hlength] at hfew
  obtain ⟨summary, hsummed, hitems, hcause, hsent⟩ :=
    Prepared.run_exhausts hp hfit.config hsource hreport hduration hinterrupt hstops hfew
  have hcomes := Prepared.comes hp hfit.config
  refine ⟨p.run c s, summary, arranged s.chance l keys, hcomes.course_eq, hsummed, ?_, hitems, hperm,
    fun hfile => if_pos hfile, fun seed hshuffle hseed => arranged_of_seed hshuffle hseed, hcause, hsent.trans hlength⟩
  generalize perform c tree s = seen at hcomes ⊢
  cases hcomes with
  | summed => rw [conclude_listing hl]
  | refused hended => cases hsummed.symm.trans hended
  | «open» hopen => exact absurd hsummed (hopen _)

/-- A tree in which the working directory holds a list of three lines, two of which are alike. -/
def threeLines : FileTree := ((FileTree.empty).write "list.txt" "a\n\n b\r\na".toUTF8).2

/-- A key that is on two lines is asked for twice, in the order of the file. -/
theorem repeated_key_is_requested_twice :
    ∃ c course summary,
      CommandLine.command Command.localApi ["find-providers", "--cids=list.txt", "--no-shuffle", "--rate", "2"]
        = .ok c ∧
      (perform c threeLines (answering "")).course = some course ∧ course.ending = .summed summary ∧
      course.calls.toList.map Run.Call.item = [.key "a", .key "b", .key "a"] ∧ summary.snapshot.sent = 3 := by
  obtain ⟨c, hc, hlisting, htarget, hduration, hreport⟩ : ∃ c,
      CommandLine.command Command.localApi ["find-providers", "--cids=list.txt", "--no-shuffle", "--rate", "2"]
        = .ok c ∧
      c.listing? = some ⟨"list.txt", true, none⟩ ∧ c.target = Command.localApi ∧ c.common.duration = none ∧
      c.common.reportInterval = Duration.ofSeconds 1 := by
    refine ⟨.findProviders { CommandLine.Common.default Command.localApi with rate := 2 } ⟨"list.txt", true, none⟩ 20,
      ?_, rfl, rfl, rfl, rfl⟩
    decide +kernel
  have htext : threeLines.readText "list.txt" = .ok "a\n\n b\r\na" := by decide +kernel
  have hkeys : Identifiers.ofText "a\n\n b\r\na" = ["a", "b", "a"] := by decide +kernel
  obtain ⟨u, hbase⟩ : ∃ u, Url.parse .unaware Command.localApi = .ok (.web u) := ⟨_, rfl⟩
  obtain ⟨course, summary, asked, hcourse, hended, _, hitems, _, hfile, _, _, hsent⟩ :=
    every_listed_key_is_requested_once (s := answering "") hc hlisting htext (htarget ▸ hbase) hduration rfl
      (by rw [hreport]; decide) (by rw [hkeys]; decide)
  rw [hkeys] at hfile hsent
  rw [hfile rfl] at hitems
  exact ⟨c, course, summary, hc, hcourse, hended, hitems, hsent⟩

end Benchmark
end Cadence
