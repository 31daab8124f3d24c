import Cadence.Gateway.History
import Cadence.Proofs.Gateway.Replies
import Mathlib.Data.List.Induction

/-!
# What a gateway gives back

Whatever a gateway is asked and in whatever order, it holds the contents that were stored in it, each under its own
identifier (`Holds`), and its counters tell the calls of its history (`Counted`). What it answers follows from these two,
which one event keeps (`Holds.follow`, `Counted.follow`) and so does a history.

* `gateway_gives_back_contents`: a content is given back exactly if it was stored, and then the latest one.
-/

namespace Cadence.Gateway

variable {g : Gateway} {history : List Event} {e : Event} {id : String}

lemma after_snoc (history : List Event) (e : Event) : after (history ++ [e]) = (after history).follow e := by
  simp [after]

lemma after_append (history later : List Event) : after (history ++ later) = later.foldl follow (after history) := by
  simp [after]

/-- An event stores at most its own content. -/
lemma follow_store (g : Gateway) (e : Event) :
    (g.follow e).store = match e.content? with
      | some content => g.store.insert content
      | none => g.store := by
  cases e with
  | stored content => rfl
  | asked call =>
    cases call with
    | add submission => cases submission <;> rfl
    | cat id =>
      cases id with
      | none => rfl
      | some id =>
        simp only [follow, handle, answer]
        split <;> rfl
    | findProviders id => cases id <;> rfl
    | lookup id =>
      simp only [follow, handle, answer]
      split <;> rfl

/-- Whether a content that is wanted is missing. -/
def Store.misses (s : Store) (wanted : Option String) : Bool := wanted.any fun id => !s.contains id

/-- A call is counted, and so is that the content is missing which it wants. -/
lemma follow_counters (g : Gateway) (call : Call) :
    (g.follow (.asked call)).counters = { g.counters.enter call with
      notFound := if g.store.misses call.wanted? then Count.wrap (g.counters.notFound + 1) else g.counters.notFound } := by
  have hlooked : ∀ (g : Gateway) (id : String), (g.looked id).counters = { g.counters with
      notFound := if g.store.misses (some id) then Count.wrap (g.counters.notFound + 1) else g.counters.notFound } := by
    intro g id
    by_cases h : g.store.contains id = true
    · simp [looked, Counters.looked, Store.misses, h]
    · simp [looked, Counters.looked, Store.misses, h]
  cases call with
  | add submission => cases submission <;> rfl
  | cat id =>
    cases id with
    | none => rfl
    | some id =>
      simp only [follow, handle, answer]
      split
      all_goals exact hlooked _ id
  | findProviders id =>
    cases id with
    | none => rfl
    | some id => exact hlooked _ id
  | lookup id =>
    simp only [follow, handle, answer]
    split
    all_goals exact hlooked _ id

/-- The contents of a history are what a gateway holds: each under its identifier, and the latest of those that share
one. -/
structure Holds (history : List Event) (s : Store) : Prop where
  keyed : ∀ b ∈ s.blocks, b.1 = contentId b.2
  latest : ∀ id, s.get? id = (contents history).reverse.find? fun content => contentId content = id

lemma contents_snoc (history : List Event) (e : Event) :
    contents (history ++ [e]) = contents history ++ e.content?.toList := by
  rw [contents, List.filterMap_append]
  cases h : e.content? <;> simp [contents, h]

lemma Holds.insert {s : Store} {content : List UInt8} (h : Holds history s) (he : e.content? = some content) :
    Holds (history ++ [e]) (s.insert content) := by
  refine ⟨?_, fun id => ?_⟩
  · intro b hb
    rcases List.mem_cons.mp hb with rfl | hb
    · rfl
    · exact h.keyed b (List.mem_filter.mp hb).1
  · rw [Store.get?_insert, contents_snoc, he, Option.toList_some, List.reverse_append, List.reverse_singleton,
      List.singleton_append, List.find?_cons]
    by_cases hid : id = contentId content
    · rw [if_pos hid, decide_eq_true hid.symm]
    · rw [if_neg hid, decide_eq_false (Ne.symm hid)]
      exact h.latest id

lemma Holds.follow (h : Holds history g.store) (e : Event) : Holds (history ++ [e]) (g.follow e).store := by
  rw [follow_store]
  cases he : e.content? with
  | some content => exact h.insert he
  | none =>
    refine ⟨h.keyed, fun id => ?_⟩
    rw [contents_snoc, he, Option.toList_none, List.append_nil]
    exact h.latest id

theorem holds (history : List Event) : Holds history (after history).store := by
  induction history using List.reverseRecOn with
  | nil => exact ⟨nofun, fun _ => rfl⟩
  | append_singleton history e ih =>
    rw [after_snoc]
    exact ih.follow e

namespace Holds

variable {s : Store}

/-- A content is held exactly if one with its identifier was stored. -/
lemma contains_iff (h : Holds history s) : s.contains id = true ↔ ∃ content ∈ contents history, contentId content = id := by
  rw [Store.contains, h.latest, List.find?_isSome]
  simp

/-- The latest content with an identifier is the one that is held. -/
lemma get?_eq {earlier later : List (List UInt8)} {content : List UInt8} (h : Holds history s)
    (hcontents : contents history = earlier ++ content :: later)
    (hlater : ∀ c ∈ later, contentId c = contentId content → c = content) :
    s.get? (contentId content) = some content := by
  rw [h.latest, hcontents, List.reverse_append, List.reverse_cons, List.append_assoc, List.find?_append]
  cases hfound : later.reverse.find? fun c => contentId c = contentId content with
  | none => simp
  | some c =>
    have hmem : c ∈ later := List.mem_reverse.mp (List.mem_of_find?_eq_some hfound)
    have hid : contentId c = contentId content := by simpa using List.find?_some hfound
    rw [hlater c hmem hid]
    rfl

end Holds

lemma contains_foldl (later : List Event) (h : g.store.contains id = true) :
    (later.foldl follow g).store.contains id = true := by
  induction later generalizing g with
  | nil => exact h
  | cons e later ih =>
    apply ih
    rw [follow_store]
    cases e.content? with
    | none => exact h
    | some content =>
      rw [Store.contains, Store.get?_insert]
      split
      · rfl
      · exact h

lemma misses_snoc (history : List Event) (e : Event) :
    misses (history ++ [e]) = misses history + (missesAt (history ++ [e]) history.length).toNat := by
  have hbefore : ∀ i ∈ List.range history.length, missesAt (history ++ [e]) i = missesAt history i := by
    intro i hi
    have hi : i < history.length := List.mem_range.mp hi
    unfold missesAt
    rw [List.getElem?_append_left hi, List.take_append_of_le_length (Nat.le_of_lt hi)]
  -- whether an event misses is decided by what came before it, so an event at the end changes none of them
  rw [misses, List.length_append, List.length_singleton, List.range_succ, List.countP_append, misses,
    List.countP_congr fun i hi => by rw [hbefore i hi], List.countP_singleton]
  cases missesAt (history ++ [e]) history.length <;> rfl

/-- The event at the end of a history misses if it is a call for a content that is not held then. -/
lemma missesAt_end {s : Store} (h : Holds history s) (e : Event) :
    missesAt (history ++ [e]) history.length = s.misses e.wanted? := by
  rw [missesAt, List.getElem?_concat_length, List.take_left, Option.bind_some]
  cases e.wanted? with
  | none => rfl
  | some id =>
    rw [Store.misses, Option.any_some, Bool.eq_iff_iff, Bool.not_eq_true', ← Bool.not_eq_true, h.contains_iff]
    simp

/-- What the counters of a gateway say about its history: how many calls there were, how many of each kind, and how many
that asked for a content which was not there. -/
structure Counted (history : List Event) (c : Counters) : Prop where
  requests : c.requests = Count.wrap (history.countP fun | .asked _ => true | .stored _ => false)
  adds : c.adds = Count.wrap (history.countP fun | .asked (.add _) => true | _ => false)
  cats : c.cats = Count.wrap (history.countP fun | .asked (.cat _) => true | _ => false)
  findProviders : c.findProviders = Count.wrap (history.countP fun | .asked (.findProviders _) => true | _ => false)
  lookups : c.lookups = Count.wrap (history.countP fun | .asked (.lookup _) => true | _ => false)
  notFound : c.notFound = Count.wrap (misses history)

lemma wrap_succ (n : Nat) : Count.wrap (Count.wrap n + 1) = Count.wrap (n + 1) := by
  simp only [Count.wrap, Count.top]
  omega

lemma Counted.stored (hg : Holds history g.store) (h : Counted history g.counters) (content : List UInt8) :
    Counted (history ++ [Event.stored content]) (g.follow (.stored content)).counters := by
  constructor
  case notFound =>
    rw [misses_snoc, missesAt_end hg]
    exact h.notFound
  all_goals rw [List.countP_append, List.countP_singleton]
  case requests => exact h.requests
  case adds => exact h.adds
  case cats => exact h.cats
  case findProviders => exact h.findProviders
  case lookups => exact h.lookups

lemma Counted.asked (hg : Holds history g.store) (h : Counted history g.counters) (call : Call) :
    Counted (history ++ [.asked call]) (g.follow (.asked call)).counters := by
  rw [follow_counters]
  constructor
  case notFound =>
    rw [misses_snoc, missesAt_end hg, h.notFound]
    show (if g.store.misses call.wanted? then _ else _) = Count.wrap (_ + (g.store.misses call.wanted?).toNat)
    cases g.store.misses call.wanted? with
    | true => exact wrap_succ _
    | false => rfl
  all_goals
    rw [List.countP_append, List.countP_singleton]
    cases call <;> simp [Counters.enter, wrap_succ, h.requests, h.adds, h.cats, h.findProviders, h.lookups]

theorem counted (history : List Event) : Counted history (after history).counters := by
  induction history using List.reverseRecOn with
  | nil => exact ⟨rfl, rfl, rfl, rfl, rfl, rfl⟩
  | append_singleton history e ih =>
    rw [after_snoc]
    cases e with
    | stored content => exact ih.stored (holds history) content
    | asked call => exact ih.asked (holds history) call

/-- The answer to a request for a content: the content, if it is held. -/
lemma reply_cat (history : List Event) (id : String) : reply history (.cat (some id))
    = match (after history).store.get? id with
      | some content => contentResponse content
      | none => errorResponse 500 "block was not found locally (offline)" := by
  cases h : (after history).store.get? id with
  | some content => simp only [reply, handle, answer, h]
  | none => simp only [reply, handle, answer, h]

lemma status_cat (history : List Event) (id : String) :
    (reply history (.cat (some id))).status = 200 ↔ (after history).store.contains id = true := by
  rw [reply_cat, Store.contains]
  cases (after history).store.get? id with
  | some content => exact ⟨fun _ => rfl, fun _ => rfl⟩
  | none => exact ⟨nofun, nofun⟩

lemma status_lookup (history : List Event) (id : String) :
    (reply history (.lookup id)).status = 200 ↔ (after history).store.contains id = true := by
  simp only [reply, handle, answer]
  split
  · next h => exact ⟨fun _ => h, fun _ => rfl⟩
  · next h => exact ⟨nofun, fun hheld => absurd hheld h⟩

lemma countP_asked (history : List Event) :
    (history.countP fun | .asked _ => true | .stored _ => false)
      = (history.countP fun | .asked (.add _) => true | _ => false)
        + (history.countP fun | .asked (.cat _) => true | _ => false)
        + (history.countP fun | .asked (.findProviders _) => true | _ => false)
        + (history.countP fun | .asked (.lookup _) => true | _ => false) := by
  induction history with
  | nil => rfl
  | cons e history ih =>
    simp only [List.countP_cons, ih]
    cases e with
    | stored content => rfl
    | asked call => cases call <;> simp <;> omega

lemma Counted.sum {c : Counters} (h : Counted history c) :
    c.requests = Count.wrap (c.adds + c.cats + c.findProviders + c.lookups) := by
  rw [h.requests, h.adds, h.cats, h.findProviders, h.lookups, countP_asked]
  simp only [Count.wrap, Count.top]
  omega

lemma misses_le (history : List Event) : misses history ≤ history.length := by
  have h := List.countP_le_length (p := missesAt history) (l := List.range history.length)
  rwa [List.length_range] at h

/-- Counters that have not come round tell plain numbers. -/
lemma Counted.exact {c : Counters} (h : Counted history c) (hroom : history.length ≤ Count.top) :
    c.requests = c.adds + c.cats + c.findProviders + c.lookups ∧ c.notFound = misses history := by
  refine ⟨?_, ?_⟩
  · have hcalls : (history.countP fun | .asked _ => true | .stored _ => false) ≤ Count.top :=
      Nat.le_trans List.countP_le_length hroom
    have hsum := countP_asked history
    rw [h.requests, h.adds, h.cats, h.findProviders, h.lookups]
    rw [Count.wrap_eq hcalls, Count.wrap_eq (by omega), Count.wrap_eq (by omega), Count.wrap_eq (by omega),
      Count.wrap_eq (by omega)]
    exact hsum
  · rw [h.notFound, Count.wrap_eq (Nat.le_trans (misses_le history) hroom)]

/-- What a gateway answers after any history of calls and of contents that were stored from within: every content stands
under its own identifier, which stays there; a content is given back exactly if one with its identifier was stored, and
then the latest one, so a file that was added is given back as it was unless another content with its identifier came
after it; the provider is listed, and a lookup succeeds, exactly when the content would be given back. The counters tell
the calls of each kind, and the misses. -/
theorem gateway_gives_back_contents (history : List Event) :
    (∀ b ∈ (after history).store.blocks, b.1 = contentId b.2) ∧
    (∀ id later, (after history).store.contains id = true → (after (history ++ later)).store.contains id = true) ∧
    (∀ id, (reply history (.cat (some id))).status = 200 ↔ ∃ content ∈ contents history, contentId content = id) ∧
    (∀ earlier content later, contents history = earlier ++ content :: later →
      (∀ c ∈ later, contentId c ≠ contentId content) →
      reply history (.cat (some (contentId content))) = ⟨200, ⟨content.toArray⟩⟩) ∧
    (∀ name content between, (∀ c ∈ contents between, contentId c = contentId content → c = content) →
      ∃ id, Reply.rootHash (reply history (.add (.file name content))).body = .ok id ∧
        reply (history ++ .asked (.add (.file name content)) :: between) (.cat (some id))
          = ⟨200, ⟨content.toArray⟩⟩) ∧
    (∀ id, ListsProvider (reply history (.findProviders (some id))) ↔ (reply history (.cat (some id))).status = 200) ∧
    (∀ id, (reply history (.lookup id)).status = 200 ↔ (reply history (.cat (some id))).status = 200) ∧
    Counted history (after history).counters ∧
    (after history).counters.requests = Count.wrap ((after history).counters.adds + (after history).counters.cats
      + (after history).counters.findProviders + (after history).counters.lookups) ∧
    (history.length ≤ Count.top →
      (after history).counters.requests = (after history).counters.adds + (after history).counters.cats
        + (after history).counters.findProviders + (after history).counters.lookups ∧
      (after history).counters.notFound = misses history) ∧
    (∀ a b : List UInt8, a.length ≠ b.length → contentId a ≠ contentId b) := by
  have hheld := holds history
  have hcounted := counted history
  have hgiven : ∀ (h : List Event) (earlier later : List (List UInt8)) (content : List UInt8),
      contents h = earlier ++ content :: later → (∀ c ∈ later, contentId c = contentId content → c = content) →
      reply h (.cat (some (contentId content))) = ⟨200, ⟨content.toArray⟩⟩ := by
    intro h earlier later content hcontents hlater
    rw [reply_cat, (holds h).get?_eq hcontents hlater]
    rfl
  refine ⟨hheld.keyed, ?_, ?_, ?_, ?_, ?_, ?_, hcounted, hcounted.sum, hcounted.exact, ?_⟩
  · intro id later hid
    rw [after_append]
    exact contains_foldl later hid
  · intro id
    rw [status_cat, hheld.contains_iff]
  · intro earlier content later hcontents hlater
    exact hgiven history earlier later content hcontents fun c hc hid => absurd hid (hlater c hc)
  · intro name content between hbetween
    refine ⟨contentId content, rootHash_addedResponse name content content.length, ?_⟩
    refine hgiven _ (contents history) (contents between) content ?_ hbetween
    rw [contents, List.filterMap_append]
    rfl
  · intro id
    rw [status_cat]
    exact listsProvider_iff ((after history).store.contains id)
  · intro id
    rw [status_lookup, status_cat]
  · intro a b hlength hid
    exact hlength (length_eq_of_contentId_eq hid)

/-- A gateway that was asked for contents it did not have, and given one from within. -/
private def busy : List Event :=
  [.asked (.cat (some "x")), .stored [1, 2], .asked (.add .nothing), .asked (.findProviders none), .asked (.lookup "y")]

/-- A file is given back although another content was stored after it, and a call for a third one missed. -/
theorem added_file_is_given_back :
    (∃ id, Reply.rootHash (reply busy (.add (.file "a\nb" [104, 105]))).body = .ok id ∧
      reply (busy ++ [.asked (.add (.file "a\nb" [104, 105])), .stored [7, 7, 7], .asked (.cat (some "z"))])
        (.cat (some id)) = ⟨200, ⟨#[104, 105]⟩⟩) ∧
    (after busy).counters = ⟨4, 1, 1, 1, 1, 2⟩ ∧ misses busy = 2 := by
  obtain ⟨_, _, _, _, hadded, _, _, _, _, hexact, _⟩ := gateway_gives_back_contents busy
  obtain ⟨hsum, hmisses⟩ := hexact (by decide)
  refine ⟨hadded "a\nb" [104, 105] [.stored [7, 7, 7], .asked (.cat (some "z"))] ?_, ?_, ?_⟩
  · intro c hc hid
    obtain rfl := List.mem_singleton.mp hc
    exact absurd (length_eq_of_contentId_eq hid) (by decide)
  · decide +kernel
  · decide +kernel

end Cadence.Gateway
