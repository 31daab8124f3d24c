import Cadence.Identifiers
import Cadence.Proofs.FileTree
import Cadence.Proofs.Text.Lines

/-!
# Identifiers that are read back

Of identifiers that were written, each comes back as the lines that are kept of it (`ofText_toText`). So they come back
as they were exactly if each of them stands for itself on a line (`ofText_toText_eq_iff`), as all identifiers do that
were read, whatever the layout of the file was (`identifier_file_is_faithful`). A sink does what writing does, and
nothing if there are no identifiers.
-/

namespace Cadence.Identifiers

open Text

lemma isLine_iff {id : String} :
    isLine id = true ↔ id.toList ≠ [] ∧ '\n' ∉ id.toList ∧ trim id.toList = id.toList := by
  simp [isLine, and_assoc]

/-- An identifier that a line can tell: it is not empty, has no line feed, and neither begins nor ends with a blank. -/
structure StandsAlone (id : String) : Prop where
  nonempty : id ≠ ""
  oneLine : '\n' ∉ id.toList
  bare : Bare id.toList

lemma isLine_iff_standsAlone {id : String} : isLine id = true ↔ StandsAlone id := by
  rw [isLine_iff, trim_eq_self_iff]
  constructor
  · rintro ⟨hne, hline, hbare⟩
    exact ⟨fun h => hne (by rw [h]; rfl), hline, hbare⟩
  · rintro ⟨hne, hline, hbare⟩
    exact ⟨fun h => hne (String.toList_inj.mp h), hline, hbare⟩

lemma ofText_eq (text : String) : ofText text = (kept text.toList).map String.ofList := rfl

/-- Each identifier comes back as the lines that are kept of it. -/
theorem ofText_toText (ids : List String) : ofText (toText ids) = ids.flatMap ofText := by
  rw [ofText_eq, toText, String.toList_ofList, kept_unlines, List.flatMap_map, List.map_flatMap]
  rfl

/-- An identifier that stands for itself on a line comes back as it was. -/
lemma ofText_of_isLine {id : String} (h : isLine id = true) : ofText id = [id] := by
  obtain ⟨hne, hline, htrim⟩ := isLine_iff.mp h
  have hkept : kept id.toList = [id.toList] := by
    rw [kept_of_not_mem hline, htrim]
    simp [hne]
  rw [ofText_eq, hkept]
  simp

lemma isLine_of_mem_ofText {text id : String} (h : id ∈ ofText text) : isLine id = true := by
  obtain ⟨l, hl, rfl⟩ := List.mem_map.mp h
  rw [isLine_iff, String.toList_ofList]
  exact mem_kept hl

/-- Identifiers come back as they were exactly if each of them stands for itself on a line. -/
theorem ofText_toText_eq_iff (ids : List String) : ofText (toText ids) = ids ↔ ∀ id ∈ ids, isLine id = true := by
  constructor
  · intro h id hid
    rw [← h] at hid
    exact isLine_of_mem_ofText hid
  · intro h
    rw [ofText_toText, List.flatMap_congr fun id hid => ofText_of_isLine (h id hid)]
    exact List.flatMap_singleton' ids

/-- Reading after writing brings the lines that are kept of each identifier. -/
theorem read_write {t u : FileTree} {path : String} {ids : List String} (h : write t path ids = (.ok (), u)) :
    read u path = .ok (ids.flatMap ofText) := by
  unfold write at h
  split at h
  · next v hv =>
    cases h
    rw [read, FileTree.readText_writeWithParents hv, ← ofText_toText]
  · cases h

/-- What is read of a file that holds a text are the identifiers of the text. -/
lemma read_of_contents {t : FileTree} {path text : String} (h : t.read path = .ok text.toUTF8) :
    read t path = .ok (ofText text) := by
  simp only [read, FileTree.readText, h, Utf8.fromUTF8?_toUTF8]

/-- Written identifiers are read back as they were exactly if each of them stands alone. All identifiers that are read of
a text do, so writing and reading them once more brings the same ones; and how the text is laid out in lines makes no
difference. -/
theorem identifier_file_is_faithful :
    (∀ (t u : FileTree) (path : String) (ids : List String), write t path ids = (.ok (), u) →
      (read u path = .ok ids ↔ ∀ id ∈ ids, StandsAlone id)) ∧
    (∀ (t : FileTree) (path text : String), t.read path = .ok text.toUTF8 →
      ∃ ids, read t path = .ok ids ∧ (∀ id ∈ ids, StandsAlone id) ∧
        ∀ (u v : FileTree) (other : String), write u other ids = (.ok (), v) → read v other = .ok ids) ∧
    (∀ (t u : FileTree) (path other text relaid : String), t.read path = .ok text.toUTF8 →
      u.read other = .ok relaid.toUTF8 → SameLines text.toList relaid.toList → read t path = read u other) := by
  have hback (t u : FileTree) (path : String) (ids : List String) (h : write t path ids = (.ok (), u)) :
      read u path = .ok ids ↔ ∀ id ∈ ids, StandsAlone id := by
    have hlines : (∀ id ∈ ids, StandsAlone id) ↔ ∀ id ∈ ids, isLine id = true := by
      simp only [isLine_iff_standsAlone]
    rw [read_write h, hlines, ← ofText_toText_eq_iff, ofText_toText]
    exact ⟨Except.ok.inj, congrArg _⟩
  refine ⟨hback, ?_, ?_⟩
  · intro t path text htext
    have hall : ∀ id ∈ ofText text, StandsAlone id := fun id hid => isLine_iff_standsAlone.mp (isLine_of_mem_ofText hid)
    exact ⟨ofText text, read_of_contents htext, hall, fun u v other hwrite => (hback u v other _ hwrite).mpr hall⟩
  · intro t u path other text relaid htext hrelaid hsame
    rw [read_of_contents htext, read_of_contents hrelaid, ofText_eq, hsame.kept_eq, ofText_eq]

/-- A list that was saved with other line ends, a blank line and no last break is read as before. An identifier with a
blank at its end does not come back. -/
theorem resaved_list_is_read_alike :
    let listed := (FileTree.empty.write "cids.txt" "bafya\nbafyb\n".toUTF8).2
    let resaved := (FileTree.empty.write "cids.txt" "bafya\r\n\nbafyb".toUTF8).2
    let padded := (write .empty "cids.txt" ["bafya", "bafyb "]).2
    listed.read "cids.txt" = .ok "bafya\nbafyb\n".toUTF8 ∧ resaved.read "cids.txt" = .ok "bafya\r\n\nbafyb".toUTF8 ∧
      write .empty "cids.txt" ["bafya", "bafyb "] = (.ok (), padded) ∧
      read listed "cids.txt" = read resaved "cids.txt" ∧
      (∃ ids, read resaved "cids.txt" = .ok ids ∧ ∀ id ∈ ids, StandsAlone id) ∧
      read padded "cids.txt" ≠ .ok ["bafya", "bafyb "] := by
  intro listed resaved padded
  have hlisted : listed.read "cids.txt" = .ok "bafya\nbafyb\n".toUTF8 :=
    FileTree.read_write (Prod.ext (by decide +kernel) rfl)
  have hresaved : resaved.read "cids.txt" = .ok "bafya\r\n\nbafyb".toUTF8 :=
    FileTree.read_write (Prod.ext (by decide +kernel) rfl)
  have hpadded : write .empty "cids.txt" ["bafya", "bafyb "] = (.ok (), padded) := Prod.ext (by decide +kernel) rfl
  obtain ⟨hback, hread, hlayout⟩ := identifier_file_is_faithful
  obtain ⟨ids, hids, hall, _⟩ := hread _ _ _ hresaved
  refine ⟨hlisted, hresaved, hpadded, hlayout _ _ _ _ _ _ hlisted hresaved ?_, ⟨ids, hids, hall⟩, fun h => ?_⟩
  · have hfirst : "bafya\nbafyb\n".toList = ("bafya".toList ++ '\n' :: "bafyb".toList) ++ ['\n'] := by decide +kernel
    have hlast : "bafya\r\n\nbafyb".toList = ("bafya".toList ++ ['\r']) ++ '\n' :: ([] ++ '\n' :: "bafyb".toList) := by
      decide +kernel
    rw [hfirst, hlast]
    apply Relation.EqvGen.trans _ _ _ (.symm _ _ (.rel _ _ .finalBreak))
    apply Relation.EqvGen.trans _ _ _ (.rel _ _ .carriageReturn)
    rw [List.append_cons]
    exact .rel _ _ (.blankLater .nil List.not_mem_nil)
  · have hbare := ((hback _ _ _ _ hpadded).mp h "bafyb " (by simp)).bare
    exact absurd (hbare.last ' ' (by decide +kernel)) (by decide)

end Cadence.Identifiers

namespace Cadence.Sink

variable {t u : FileTree} {path : String} {ids : List String}

lemma flush_nil : (ofPath path).flush t [] = ⟨.ok false, [untouched path], ⟨none⟩, t⟩ := rfl

lemma flush_of_write (hids : ids ≠ []) (h : Identifiers.write t path ids = (.ok (), u)) :
    (ofPath path).flush t ids = ⟨.ok true, [written path ids.length], ⟨none⟩, u⟩ := by
  simp [flush, ofPath, hids, h]

lemma flush_of_fault {f : Fault} (hids : ids ≠ []) (h : Identifiers.write t path ids = (.error f, u)) :
    (ofPath path).flush t ids = ⟨.error f, [], ⟨none⟩, u⟩ := by
  simp [flush, ofPath, hids, h]

end Cadence.Sink
