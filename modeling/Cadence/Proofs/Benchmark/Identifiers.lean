import Cadence.Proofs.Benchmark.Conclusion
import Cadence.Proofs.Exchange.Judgement
import Cadence.Proofs.Simulation.Results

/-!
# Identifiers of an upload

The identifiers that an upload keeps are those that the replies to its successful operations tell, in the order in which
these came in. What a later command reads from the file are the lines of these (`upload_is_read_back`): an identifier
with a line feed in it comes back as several, and one with blanks at its ends without them.
-/

namespace Cadence.Benchmark

open CommandLine (Command Common)
open Http (Response)

namespace Surroundings

variable (s : Surroundings) (e : Executor) (timeout : Duration)

/-- The response that comes of an operation, if there is one. -/
def response? (number : Nat) (item : Item) : Option Response :=
  match e.request? (s.upload item) timeout item with
  | none => none
  | some r =>
    match Http.Client.request s.idna (s.network number) r with
    | .replies _ (.ok response) => some response
    | _ => none

/-- The identifier that the response behind a result tells. -/
def identifier? (calls : Array Run.Call) (k : Run.Completion) : Option String :=
  calls[k.operation]?.bind fun call =>
    (s.response? e timeout k.operation call.item).bind fun response => (Reply.rootHash response.body).toOption

end Surroundings

variable {s : Surroundings} {timeout : Duration} {number : Nat} {item : Item} {after : Duration} {o : Outcome}

/-- A reply to an upload counts as a success only if it is a response that tells an identifier. -/
lemma judge_inv {u : Url} {latency : Duration} {reply : Except Http.SendError Response}
    (h : ((Executor.upload u).judge item latency reply).1.succeeded = true) :
    ∃ response hash, reply = .ok response ∧ Reply.rootHash response.body = .ok hash ∧
      ((Executor.upload u).judge item latency reply).1.produced = some hash := by
  have hjudged := (Executor.upload u).judged_judge item latency reply
  obtain ⟨hash, hproduced⟩ := Option.isSome_iff_exists.mp (hjudged.produced_iff.mpr ⟨rfl, h⟩)
  obtain ⟨_, response, hreply, hroot⟩ := hjudged.produced_root hash hproduced
  exact ⟨response, hash, hreply, hroot, hproduced⟩

/-- An upload succeeds only with a response that tells an identifier, and makes this one. -/
lemma upload_inv {u : Url} (h : (s.exchange (.upload u) timeout number item).behaviour = .finishes after o)
    (ho : o.succeeded = true) :
    ∃ response hash, s.response? (.upload u) timeout number item = some response ∧
      Reply.rootHash response.body = .ok hash ∧ o.produced = some hash := by
  unfold Surroundings.exchange at h
  unfold Surroundings.response?
  cases hmemory : s.allocation (.upload u) item with
  | impossible =>
    rw [hmemory] at h
    cases h
  | refused =>
    rw [hmemory] at h
    cases h
  | given =>
    rw [hmemory] at h
    cases hr : (Executor.upload u).request? (s.upload item) timeout item with
    | none =>
      rw [hr] at h
      cases h
      cases ho
    | some r =>
      rw [hr] at h
      dsimp only at h ⊢
      cases hn : Http.Client.request s.idna (s.network number) r with
      | silent =>
        rw [hn] at h
        cases h
      | replies latency reply =>
        rw [hn] at h
        cases h
        obtain ⟨response, hash, rfl, hroot, hproduced⟩ := judge_inv ho
        exact ⟨response, hash, rfl, hroot, hproduced⟩

/-- A value for every element that counts and none for the others: the values are those of the ones that count. -/
private lemma map_some_filterMap {α β : Type} {counts : α → Bool} {f g : α → Option β} {l : List α}
    (hcounts : ∀ a ∈ l, counts a = true → ∃ b, f a = some b ∧ g a = some b)
    (hnone : ∀ a ∈ l, counts a = false → f a = none) : (l.filterMap f).map some = (l.filter counts).map g := by
  induction l with
  | nil => rfl
  | cons a l ih =>
    have ih := ih (fun b hb => hcounts b (List.mem_cons_of_mem _ hb)) fun b hb => hnone b (List.mem_cons_of_mem _ hb)
    cases hc : counts a with
    | true =>
      obtain ⟨b, hf, hg⟩ := hcounts a List.mem_cons_self hc
      rw [List.filterMap_cons_some hf, List.filter_cons_of_pos hc, List.map_cons, List.map_cons, ih, hg]
    | false =>
      rw [List.filterMap_cons_none (hnone a List.mem_cons_self hc), List.filter_cons_of_neg (by simp [hc]), ih]

variable {course : Run.Course} {summary : Run.Summary}

/-- The identifiers of an upload are those that the responses to its successes tell, in order. -/
lemma produced_of_brought {u : Url} (h : course.Brought (s.environment (.upload u) timeout) summary) :
    summary.produced.map some
      = (course.completions.toList.filter (·.outcome.succeeded)).map
        (s.identifier? (.upload u) timeout course.calls) := by
  rw [h.produced]
  apply map_some_filterMap
  · intro k hk hs
    obtain ⟨call, hcall, hb⟩ := h.brought k (Array.mem_toList_iff.mp hk)
    obtain ⟨after, hbehaviour⟩ := Run.Behaviour.finishes_of_succeeded hb hs
    obtain ⟨response, hash, hresponse, hroot, hproduced⟩ := upload_inv hbehaviour hs
    refine ⟨hash, by simp [Run.Completion.made?, hs, hproduced], ?_⟩
    simp [Surroundings.identifier?, hcall, hresponse, hroot, Except.toOption]
  · intro k _ hs
    simp [Run.Completion.made?, hs]

/-- An upload is prepared to upload. -/
lemma executor_of_upload {common : Common} {size count : Nat} {path : String} {tree : FileTree} {p : Prepared}
    (h : prepare s.idna (.upload common size count path) tree s.chance = .ok p) : ∃ u, p.executor = .upload u := by
  have hoperation := prepare_ok_operation h
  cases he : p.executor with
  | upload u => exact ⟨u, rfl⟩
  | _ =>
    rw [he] at hoperation
    cases hoperation

/-- An upload that succeeds with something completed keeps as many identifiers as it completed, which are those that
the responses told, in the order of their results. A later reading of the file brings the lines of each of them, so it
brings them as they were exactly if each of them stands for itself on a line. -/
theorem upload_is_read_back {common : Common} {size count : Nat} {path : String} {tree : FileTree}
    (hcourse : (perform (.upload common size count path) tree s).course = some course)
    (hended : course.ending = .summed summary)
    (hexit : (perform (.upload common size count path) tree s).exit = some .success)
    (hcompleted : summary.snapshot.completed ≠ 0) :
    ∃ p, prepare s.idna (.upload common size count path) tree s.chance = .ok p ∧
      let seen := perform (.upload common size count path) tree s
      seen.output = opening (.upload common size count path) p.workload course ++
        Report.summaryText .upload summary (some ⟨path, summary.produced.length⟩) common.output ∧
      summary.snapshot.completed = Count.cap summary.produced.length ∧
      summary.produced.map some
        = (course.completions.toList.filter (·.outcome.succeeded)).map
          (s.identifier? p.executor common.config.timeout course.calls) ∧
      Identifiers.read seen.tree path = .ok (summary.produced.flatMap Identifiers.ofText) ∧
      (Identifiers.read seen.tree path = .ok summary.produced ↔
        ∀ id ∈ summary.produced, Identifiers.isLine id = true) := by
  obtain ⟨p, hp, hrun, hseen⟩ := perform_concludes hcourse hended
  obtain ⟨u, hu⟩ := executor_of_upload hp
  have hbrought := Run.simulate_brings hrun hended
  have hproduced : summary.produced.map some
      = (course.completions.toList.filter (·.outcome.succeeded)).map
        (s.identifier? p.executor common.config.timeout course.calls) := by
    rw [hu] at hbrought ⊢
    exact produced_of_brought hbrought
  have hcount : summary.snapshot.completed = Count.cap summary.produced.length := by
    rw [hbrought.completed, List.countP_eq_length_filter]
    simpa using congrArg (Count.cap ∘ List.length) hproduced.symm
  refine ⟨p, hp, ?_⟩
  generalize perform (.upload common size count path) tree s = seen at hseen hexit ⊢
  cases hseen with
  | untouched hnone =>
    rw [hnone] at hcount
    exact absurd hcount hcompleted
  | unwritable => cases hexit
  | written hids hwrite =>
    have hread := Identifiers.read_write hwrite
    refine ⟨rfl, hcount, hproduced, hread, ?_⟩
    rw [hread, ← Identifiers.ofText_toText, ← Identifiers.ofText_toText_eq_iff]
    exact ⟨Except.ok.inj, congrArg _⟩

/-- A service that tells an identifier with a line feed in it: one upload is completed and one identifier kept, and two
others are read back. -/
theorem identifier_with_line_feed_is_split :
    ∃ course summary,
      let seen := perform (uploadTo "cids.txt") .empty (answering "\x7b\"Hash\":\"bafya\\nbafyb\"\x7d")
      seen.course = some course ∧ course.ending = .summed summary ∧ seen.exit = some .success ∧
      summary.snapshot.completed = 1 ∧ summary.produced = ["bafya\nbafyb"] ∧
      Identifiers.read seen.tree "cids.txt" = .ok ["bafya", "bafyb"] := by
  have hyield : yield? (uploadTo "cids.txt") .empty (answering "\x7b\"Hash\":\"bafya\\nbafyb\"\x7d")
      = some (1, ["bafya\nbafyb"]) := by decide +kernel
  have hexit : (perform (uploadTo "cids.txt") .empty (answering "\x7b\"Hash\":\"bafya\\nbafyb\"\x7d")).exit
      = some .success := by decide +kernel
  obtain ⟨course, summary, hcourse, hended, hcompleted, hproduced⟩ := yield?_inv hyield
  obtain ⟨_, _, _, _, _, hread, _⟩ := upload_is_read_back hcourse hended hexit (by rw [hcompleted]; exact nofun)
  have hlines : Identifiers.ofText "bafya\nbafyb" = ["bafya", "bafyb"] := by decide +kernel
  rw [hproduced, List.flatMap_singleton, hlines] at hread
  exact ⟨course, summary, hcourse, hended, hexit, hcompleted, hproduced, hread⟩

end Cadence.Benchmark
