import Cadence.Proofs.FileTree

/-!
# What accesses leave alone

Making directories touches nothing that was there, and neither does a write that is refused; what is new are directories
(`Grows`). A write that succeeds touches the place that its path leads to, and no other (`writeWithParents_holds`). One that
fails has made some directories at most, or there was no room for all of its contents: then the file holds the beginning of
them (`writeWithParents_failed`).
-/

namespace Cadence.FileTree

variable {t u v : FileTree} {path : String} {contents : ByteArray} {here : List String → Prop}

/-- What becomes of a tree, apart from some places: whatever was there stays, and what is new are directories. -/
structure Grows (here : List String → Prop) (t u : FileTree) : Prop where
  cwd : u.cwd = t.cwd
  limits : u.limits = t.limits
  stays : ∀ place node, ¬ here place → t.node? place = some node → u.node? place = some node
  grown : ∀ place, ¬ here place → t.node? place = none → u.node? place = none ∨ u.node? place = some .directory

lemma Grows.refl (here : List String → Prop) (t : FileTree) : Grows here t t := ⟨rfl, rfl, fun _ _ _ h => h, fun _ _ h => .inl h⟩

lemma Grows.trans (h₁ : Grows here t u) (h₂ : Grows here u v) : Grows here t v where
  cwd := h₂.cwd.trans h₁.cwd
  limits := h₂.limits.trans h₁.limits
  stays place node hp hn := h₂.stays place node hp (h₁.stays place node hp hn)
  grown place hp hn := by
    rcases h₁.grown place hp hn with hnone | hdirectory
    · exact h₂.grown place hp hnone
    · exact .inr (h₂.stays place _ hp hdirectory)

lemma node?_put_of_ne {place names : List String} (node : Node) (h : place ≠ names) :
    (t.put names node).node? place = t.node? place := by
  by_cases hplace : place = []
  · subst hplace
    rfl
  · rw [node?_put t names node hplace, if_neg h]

/-- A path that leads to a free place leads to one where nothing stands. -/
lemma walk_free {place names rest : List String} {slash : Bool}
    (h : t.walk place .directory rest = .ok (.free names slash)) : names ≠ [] ∧ t.node? names = none := by
  induction rest generalizing place with
  | nil => cases h
  | cons name rest ih =>
    cases follows place name rest with
    | moves hwalk =>
      rw [hwalk] at h
      exact ih h
    | refused hwalk =>
      rw [hwalk] at h
      cases h
    | looksUp hwalk =>
      rw [hwalk] at h
      cases hnode : t.node? (place ++ [name]) with
      | none =>
        rw [hnode] at h
        dsimp only at h
        split at h
        · cases h
          exact ⟨by simp, hnode⟩
        · cases h
      | some node =>
        rw [hnode] at h
        cases node with
        | file old =>
          obtain ⟨_, hresult⟩ := walk_file_inv h
          cases hresult
        | barred => cases walk_barred_inv h
        | directory => exact ih h

lemma locate_free {names : List String} {slash : Bool} (h : t.locate path = .ok (.free names slash)) :
    names ≠ [] ∧ t.node? names = none := by
  rcases locate_cases path with ⟨e, hrefused⟩ | hroot | hcwd
  · rw [hrefused] at h
    cases h
  · rw [hroot] at h
    exact walk_free h
  · rw [hcwd] at h
    exact walk_free h

lemma grows_put_directory {names : List String} (hnames : names ≠ []) (hfree : t.node? names = none) :
    Grows here t (t.put names .directory) where
  cwd := rfl
  limits := rfl
  stays place node _ hn := by
    have hne : place ≠ names := by
      rintro rfl
      rw [hfree] at hn
      cases hn
    rw [node?_put_of_ne _ hne]
    exact hn
  grown place _ hn := by
    by_cases hplace : place = names
    · subst hplace
      rw [node?_put t place _ hnames, if_pos rfl]
      exact .inr rfl
    · rw [node?_put_of_ne _ hplace]
      exact .inl hn

lemma makeDirectory_grows {result : Except SystemError Unit} (h : t.makeDirectory path = (result, u)) :
    Grows here t u := by
  unfold makeDirectory at h
  split at h
  · cases h
    exact .refl here t
  · cases h
    exact .refl here t
  · next hl =>
    split at h
    · cases h
      exact .refl here t
    · cases h
      obtain ⟨hnames, hfree⟩ := locate_free hl
      exact grows_put_directory hnames hfree

lemma makeDirectories_grows {absolute : Bool} {names : List String} {result : Except SystemError Unit}
    (h : t.makeDirectories absolute names = (result, u)) : Grows here t u := by
  -- by the recursion of the function: the directory itself, those above it, and the directory once more
  induction names generalizing t u result with
  | nil =>
    cases h
    exact .refl here t
  | cons name above ih =>
    rw [makeDirectories] at h
    split at h
    · next hmade =>
      cases h
      exact makeDirectory_grows hmade
    · next hrefused =>
      have hsame : Grows here t _ := makeDirectory_grows hrefused
      split at h
      · split at h
        · next habove =>
          cases h
          exact hsame.trans (ih habove)
        · next habove =>
          have hgrown := hsame.trans (ih habove)
          split at h
          · next hmade =>
            cases h
            exact hgrown.trans (makeDirectory_grows hmade)
          · next hagain =>
            cases h
            exact hgrown.trans (makeDirectory_grows hagain)
      · cases h
        exact hsame

lemma makeParents_grows {result : Except SystemError Unit} (h : t.makeParents path = (result, u)) : Grows here t u :=
  makeDirectories_grows h

/-- A path leads to a file with these contents, and apart from it whatever was there stays; what is new are directories. -/
structure Holds (path : String) (contents : ByteArray) (t u : FileTree) : Prop where
  read : u.read path = .ok contents
  grows : Grows (fun place => u.locate path = .ok (.taken place (.file contents))) t u

lemma Holds.of_grows (h₁ : ∀ here, Grows here t u) (h₂ : Holds path contents u v) : Holds path contents t v :=
  ⟨h₂.read, (h₁ _).trans h₂.grows⟩

/-- A file that was put where it can be written is there, and everything else is where it was. -/
lemma holds_put {place : Place} {names : List String} (hl : t.locate path = .ok place) (hw : Writable place names) :
    Holds path contents t (t.put names (.file contents)) := by
  have hthere : (t.put names (.file contents)).locate path = .ok (.taken names (.file contents)) := locate_put hl hw
  refine ⟨read_put hl hw, rfl, rfl, fun place node hp hn => ?_, fun place hp hn => .inl ?_⟩
  all_goals
    have hne : place ≠ names := by
      rintro rfl
      exact hp hthere
    rw [node?_put_of_ne _ hne]
    exact hn

/-- A write touches the file that its path leads to afterwards, and nothing else. -/
lemma write_holds (h : t.write path contents = (.ok (), u)) : Holds path contents t u := by
  obtain ⟨place, names, hl, hw, rfl⟩ := write_inv h
  exact holds_put hl hw

/-- What a write leaves behind that failed: nothing but new directories, or a file that there was not enough room for, which
holds the beginning of the contents. -/
inductive Failed (path : String) (contents : ByteArray) (t u : FileTree) : Prop where
  | refused : (∀ here, Grows here t u) → Failed path contents t u
  | cut {most : ℕ} : most < contents.size → Holds path (contents.extract 0 most) t u → Failed path contents t u

lemma Failed.of_grows (h₁ : ∀ here, Grows here t u) (h₂ : Failed path contents u v) : Failed path contents t v := by
  cases h₂ with
  | refused hgrows => exact .refused fun here => (h₁ here).trans (hgrows here)
  | cut hless hholds => exact .cut hless (.of_grows h₁ hholds)

lemma write_failed {e : SystemError} (h : t.write path contents = (.error e, u)) : Failed path contents t u := by
  have hwrites := t.writes path contents
  rw [h] at hwrites
  cases hwrites with
  | refused => exact .refused fun here => .refl here t
  | fills hl hw hfills =>
    cases hfills with
    | refused => exact .refused fun here => .refl here t
    | cut hless => exact .cut hless (holds_put hl hw)

/-- Writing a file with the directories that it needs touches this file, and nothing else that was there. -/
theorem writeWithParents_holds (h : t.writeWithParents path contents = (.ok (), u)) : Holds path contents t u := by
  unfold writeWithParents at h
  split at h
  · cases h
  · next hparents => exact .of_grows (fun _ => makeParents_grows hparents) (write_holds h)

/-- Where a file cannot be written, some of the directories may have been made, and if there was no room for all of it, it
holds the beginning. -/
theorem writeWithParents_failed {e : SystemError} (h : t.writeWithParents path contents = (.error e, u)) :
    Failed path contents t u := by
  unfold writeWithParents at h
  split at h
  · next hparents =>
    cases h
    exact .refused fun _ => makeParents_grows hparents
  · next hparents => exact .of_grows (fun _ => makeParents_grows hparents) (write_failed h)

end Cadence.FileTree
