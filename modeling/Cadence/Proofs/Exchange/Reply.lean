import Cadence.Exchange.Reply
import Cadence.Proofs.Text.Lines
import Cadence.Proofs.Text.Utf8

/-!
# The hash that a reply tells

What counts of a reply to an upload is the last of the hashes that its lines tell (`lastHash?_eq_getLast?`). The hashes of a
reply are those of its lines, one after the other (`hashes_append`), so neither its layout nor lines that tell nothing are seen
(`SameReply`).
-/

namespace Cadence.Reply

open Text

lemma lastHash?_eq (text : List Char) : lastHash? text = (kept text).reverse.findSome? lineHash? := by
  rw [lastHash?, kept, trimmedLines, List.filter_reverse]

/-- A line tells a hash if what is left of it without the blanks around it is an object with that hash. -/
def Tells (line : List Char) (hash : String) : Prop := lineHash? (trim line) = some hash

/-- A line that tells no hash. -/
def Mute (line : List Char) : Prop := lineHash? (trim line) = none

/-- The hashes that the lines of a text tell, in their order. -/
def hashes (text : List Char) : List String := (kept text).filterMap lineHash?

lemma lastHash?_eq_getLast? (text : List Char) : lastHash? text = (hashes text).getLast? := by
  rw [lastHash?_eq, ← List.head?_filterMap, List.filterMap_reverse, List.head?_reverse, hashes]

lemma lineHash?_nil : lineHash? [] = none := rfl

/-- Blank lines tell no hash, so all lines may be looked at. -/
lemma hashes_eq (text : List Char) : hashes text = (lines text).filterMap fun line => lineHash? (trim line) := by
  rw [hashes, kept, List.filterMap_filter, List.filterMap_map]
  apply List.filterMap_congr
  intro line _
  cases h : trim line with
  | nil => simp [h, lineHash?_nil]
  | cons c s => simp [h]

lemma hashes_append (s t : List Char) : hashes (s ++ '\n' :: t) = hashes s ++ hashes t := by
  rw [hashes, kept_append, List.filterMap_append, hashes, hashes]

lemma hashes_unlines (ls : List (List Char)) : hashes (unlines ls) = ls.flatMap hashes := by
  rw [hashes, kept_unlines, List.filterMap_flatMap]
  rfl

/-- A line by itself tells one hash or none. -/
lemma hashes_of_line {line : List Char} (h : '\n' ∉ line) : hashes line = (lineHash? (trim line)).toList := by
  rw [hashes, kept_of_not_mem h]
  cases htrim : trim line with
  | nil => rfl
  | cons c s => cases hline : lineHash? (c :: s) <;> simp [hline]

/-- One change to a reply that is not to be seen: in how it is laid out in lines, by one more line that tells no hash, or by
blanks around a line. -/
inductive Edited : List Char → List Char → Prop where
  | relaid {s t} : Relaid s t → Edited s t
  | inserted {before line after} : '\n' ∉ line → Mute line →
    Edited (unlines (before ++ after)) (unlines (before ++ line :: after))
  | padded {before left line right after} : '\n' ∉ left ++ line ++ right → Blanks left → Blanks right →
    Edited (unlines (before ++ line :: after)) (unlines (before ++ (left ++ line ++ right) :: after))

/-- Texts that come from one another by such changes, in any number and order. -/
def SameReply : List Char → List Char → Prop := Relation.EqvGen Edited

lemma Edited.hashes_eq {s t : List Char} (h : Edited s t) : hashes s = hashes t := by
  cases h with
  | relaid h => rw [hashes, h.kept_eq, hashes]
  | inserted hline hmute =>
    rw [hashes_unlines, hashes_unlines, List.flatMap_append, List.flatMap_append, List.flatMap_cons, hashes_of_line hline,
      hmute, Option.toList_none, List.nil_append]
  | @padded before left line right after hline hleft hright =>
    have hbare : '\n' ∉ line := fun h => hline (List.mem_append_left _ (List.mem_append_right _ h))
    rw [hashes_unlines, hashes_unlines, List.flatMap_append, List.flatMap_append, List.flatMap_cons, List.flatMap_cons,
      hashes_of_line hbare, hashes_of_line hline, trim_surrounded hleft hright]

lemma SameReply.hashes_eq {s t : List Char} (h : SameReply s t) : hashes s = hashes t :=
  (eq_equivalence.comap hashes).eqvGen_iff.mp (Relation.EqvGen.mono (fun _ _ => Edited.hashes_eq) _ _ h)

/-- What is made of a reply to an upload, given the last of the hashes that it tells. -/
def rootOf : Option String → Except RootError String
  | some hash => if hash.isEmpty then .error .noHash else .ok hash
  | none => .error .noHash

lemma rootHash_toUTF8 (text : String) : rootHash text.toUTF8 = rootOf (hashes text.toList).getLast? := by
  rw [rootHash, Utf8.fromUTF8?_toUTF8]
  dsimp only
  rw [lastHash?_eq_getLast?]
  cases (hashes text.toList).getLast? <;> rfl

lemma rootOf_eq_ok_iff {last : Option String} {hash : String} : rootOf last = .ok hash ↔ hash ≠ "" ∧ last = some hash := by
  cases last with
  | none => exact ⟨nofun, fun h => nomatch h.2⟩
  | some h =>
    rw [rootOf]
    split
    · next hempty =>
      refine ⟨nofun, ?_⟩
      rintro ⟨hne, hh⟩
      cases hh
      exact absurd (String.isEmpty_iff.mp hempty) hne
    · next hempty =>
      rw [Except.ok.injEq, Option.some.injEq]
      refine ⟨?_, fun hh => hh.2⟩
      rintro rfl
      exact ⟨mt String.isEmpty_iff.mpr hempty, rfl⟩

/-- The last hash is that of a line after which no line tells one. -/
lemma getLast?_hashes_iff {text : List Char} {hash : String} : (hashes text).getLast? = some hash ↔
    ∃ before line after, lines text = before ++ line :: after ∧ Tells line hash ∧ ∀ l ∈ after, Mute l := by
  rw [hashes_eq, ← List.head?_reverse, ← List.filterMap_reverse, List.head?_filterMap, List.findSome?_eq_some_iff]
  constructor
  · rintro ⟨after, line, before, hlines, hline, hafter⟩
    refine ⟨before.reverse, line, after.reverse, ?_, hline, fun l hl => hafter l (List.mem_reverse.mp hl)⟩
    rw [List.reverse_eq_iff.mp hlines, List.reverse_append, List.reverse_cons, List.append_assoc, List.singleton_append]
  · rintro ⟨before, line, after, hlines, hline, hafter⟩
    refine ⟨after.reverse, line, before.reverse, ?_, hline, fun l hl => hafter l (List.mem_reverse.mp hl)⟩
    rw [hlines, List.reverse_append, List.reverse_cons, List.append_assoc, List.singleton_append]

lemma hashes_eq_nil_iff {text : List Char} : hashes text = [] ↔ ∀ line ∈ lines text, Mute line := by
  rw [hashes_eq, List.filterMap_eq_nil_iff]
  rfl

lemma rootHash_eq_notText_iff {body : ByteArray} : rootHash body = .error .notText ↔ ∀ text : String, body ≠ text.toUTF8 := by
  constructor
  · rintro h text rfl
    rw [rootHash_toUTF8] at h
    cases hlast : (hashes text.toList).getLast? with
    | none => rw [hlast] at h; cases h
    | some hash =>
      rw [hlast, rootOf] at h
      split at h <;> cases h
  · intro h
    unfold rootHash
    split
    · rfl
    · next text htext => exact absurd (Utf8.eq_toUTF8_of_fromUTF8? htext) (h text)

lemma toList_below (a b : String) : (a ++ "\n" ++ b).toList = a.toList ++ '\n' :: b.toList := by
  rw [String.toList_append, String.toList_append, List.append_assoc]
  rfl

/-- Of two texts, one below the other, the lower one counts if any of its lines tells a hash, and the upper one if none does.
Changes to a reply that are not to be seen are not. A reply comes to a hash exactly if that is not empty, and is the one that
the last of all its lines tells that tell one; and to what is no text exactly if its bytes are none. -/
theorem last_told_hash_counts :
    (∀ a b : String, (∃ line ∈ lines b.toList, ∃ hash, Tells line hash) →
      rootHash (a ++ "\n" ++ b).toUTF8 = rootHash b.toUTF8) ∧
    (∀ a b : String, (∀ line ∈ lines b.toList, Mute line) → rootHash (a ++ "\n" ++ b).toUTF8 = rootHash a.toUTF8) ∧
    (∀ a b : String, SameReply a.toList b.toList → rootHash a.toUTF8 = rootHash b.toUTF8) ∧
    (∀ body hash, rootHash body = .ok hash ↔ hash ≠ "" ∧ ∃ text : String, body = text.toUTF8 ∧
      ∃ before line after, lines text.toList = before ++ line :: after ∧ Tells line hash ∧ ∀ l ∈ after, Mute l) ∧
    (∀ body, rootHash body = .error .notText ↔ ∀ text : String, body ≠ text.toUTF8) := by
  refine ⟨fun a b ⟨line, hline, hash, htells⟩ => ?_, fun a b hmute => ?_, fun a b hsame => ?_, fun body hash => ?_,
    fun body => rootHash_eq_notText_iff⟩
  · have hne : hashes b.toList ≠ [] := by
      intro hnil
      have hmute := hashes_eq_nil_iff.mp hnil line hline
      rw [Mute, htells] at hmute
      cases hmute
    rw [rootHash_toUTF8, toList_below, hashes_append, List.getLast?_append_of_ne_nil _ hne, rootHash_toUTF8]
  · rw [rootHash_toUTF8, toList_below, hashes_append, hashes_eq_nil_iff.mpr hmute, List.append_nil, rootHash_toUTF8]
  · rw [rootHash_toUTF8, hsame.hashes_eq, rootHash_toUTF8]
  · constructor
    · intro h
      cases hbody : String.fromUTF8? body with
      | none =>
        rw [rootHash, hbody] at h
        cases h
      | some text =>
        obtain rfl := Utf8.eq_toUTF8_of_fromUTF8? hbody
        rw [rootHash_toUTF8, rootOf_eq_ok_iff, getLast?_hashes_iff] at h
        exact ⟨h.1, text, rfl, h.2⟩
    · rintro ⟨hne, text, rfl, hlast⟩
      rw [rootHash_toUTF8, rootOf_eq_ok_iff, getLast?_hashes_iff]
      exact ⟨hne, hlast⟩

/-- An empty hash that comes last is the one that counts, a line without a hash is not, and neither is a carriage return. -/
theorem empty_hash_is_not_passed_over :
    let root := "\x7b\"Hash\":\"bafya\"\x7d"
    let empty := "\x7b\"Hash\":\"\"\x7d"
    let progress := "\x7b\"Bytes\":512\x7d"
    (∃ line ∈ lines empty.toList, ∃ hash, Tells line hash) ∧ (∀ line ∈ lines progress.toList, Mute line) ∧
      SameReply (root ++ "\n").toList (root ++ "\r\n").toList ∧
      rootHash (root ++ "\n" ++ empty).toUTF8 = rootHash empty.toUTF8 ∧
      rootHash (root ++ "\n" ++ progress).toUTF8 = .ok "bafya" ∧
      rootHash (root ++ "\n").toUTF8 = rootHash (root ++ "\r\n").toUTF8 := by
  intro root empty progress
  obtain ⟨hlower, hupper, hsame, hroot, _⟩ := last_told_hash_counts
  have hempty : ∃ line ∈ lines empty.toList, ∃ hash, Tells line hash :=
    ⟨empty.toList, by decide +kernel, "", by unfold Tells; decide +kernel⟩
  have hprogress : ∀ line ∈ lines progress.toList, Mute line := by
    have hlines : lines progress.toList = [progress.toList] := by decide +kernel
    rw [hlines, List.forall_mem_singleton]
    unfold Mute
    decide +kernel
  have hreturn : SameReply (root ++ "\n").toList (root ++ "\r\n").toList := by
    have hfeed : (root ++ "\n").toList = root.toList ++ '\n' :: [] := by decide +kernel
    have hboth : (root ++ "\r\n").toList = root.toList ++ '\r' :: '\n' :: [] := by decide +kernel
    rw [hfeed, hboth]
    exact .rel _ _ (.relaid .carriageReturn)
  refine ⟨hempty, hprogress, hreturn, hlower root empty hempty, ?_, hsame _ _ hreturn⟩
  rw [hupper root progress hprogress, hroot]
  have hlines : lines root.toList = [root.toList] := by decide +kernel
  exact ⟨by decide, root, rfl, [], root.toList, [], hlines, by unfold Tells; decide +kernel, nofun⟩

end Cadence.Reply
