import Cadence.FileTree
import Cadence.Proofs.Text.Utf8
import Mathlib.Data.List.Basic

/-!
# Files that were written

A write is refused, or it fills the file that its path leads to, with all of the contents or with as much of them as there
is room for (`FileTree.Writes`). A file that was filled is read back with what it was filled with (`FileTree.read_put`):
the path leads, name by name, to the place where the file was put (`FileTree.walk_put`), since nothing on the way there has
changed.
-/

namespace Cadence.FileTree

variable {t u : FileTree} {path : String} {contents : ByteArray}

private lemma lookup_filter_ne {names place : List String} (h : place ≠ names) (nodes : List (List String × Node)) :
    (nodes.filter fun e => e.1 ≠ names).lookup place = nodes.lookup place := by
  induction nodes with
  | nil => rfl
  | cons e nodes ih =>
    obtain ⟨key, node⟩ := e
    by_cases hkey : key = names
    · subst hkey
      have hne : (place == key) = false := beq_eq_false_iff_ne.mpr h
      rw [List.filter_cons_of_neg (by simp), ih, List.lookup_cons, hne]
    · rw [List.filter_cons_of_pos (by simpa using hkey), List.lookup_cons, List.lookup_cons, ih]

/-- Whatever is put at a place stands there, and everything else where it stood. -/
lemma node?_put (t : FileTree) (names : List String) (node : Node) {place : List String} (hplace : place ≠ []) :
    (t.put names node).node? place = if place = names then some node else t.node? place := by
  have hempty : place.isEmpty = false := List.isEmpty_eq_false_iff.mpr hplace
  by_cases h : place = names
  · subst h
    simp [node?, put, hempty]
  · have hne : (place == names) = false := beq_eq_false_iff_ne.mpr h
    simp only [node?, hempty, put, if_neg h, List.lookup_cons, hne]
    exact lookup_filter_ne h t.nodes

/-- A place at which a file can be written: it is free, or there is a file. -/
inductive Writable : Place → List String → Prop where
  | free {names} : Writable (.free names false) names
  | taken {names contents} : Writable (.taken names (.file contents)) names

lemma Writable.free_inv {place names : List String} {slash : Bool} (h : Writable (.free place slash) names) :
    slash = false ∧ place = names := by
  cases h
  exact ⟨rfl, rfl⟩

/-- A path does not go on behind a file. -/
lemma walk_file_inv {place rest result} (h : t.walk place (.file contents) rest = .ok result) :
    rest = [] ∧ result = .taken place (.file contents) := by
  cases rest with
  | nil =>
    cases h
    exact ⟨rfl, rfl⟩
  | cons name rest => cases h

/-- A path that leads to what is barred ends there. -/
lemma walk_barred_inv {place rest result directory answer} (h : t.walk place (.barred directory answer) rest = .ok result) :
    result = .taken place (.barred directory answer) := by
  induction rest with
  | nil =>
    cases h
    rfl
  | cons name rest ih =>
    cases directory with
    | false => cases h
    | true =>
      rw [walk] at h
      split at h
      · exact ih h
      · cases h

/-- What the first name of a path does in every tree: it leads to another place without a look at the tree, or it is
refused, or it is looked up. -/
inductive Follows (place : List String) (name : String) (rest : List String) : Prop where
  | moves {next} : (∀ t : FileTree, t.walk place .directory (name :: rest) = t.walk next .directory rest) → Follows place name rest
  | refused {e} : (∀ t : FileTree, t.walk place .directory (name :: rest) = .error e) → Follows place name rest
  | looksUp : (∀ t : FileTree, t.walk place .directory (name :: rest) =
      match t.node? (place ++ [name]) with
      | some node => t.walk (place ++ [name]) node rest
      | none => if rest.all (· = "") then .ok (.free (place ++ [name]) (!rest.isEmpty)) else .error .notFound) →
    Follows place name rest

lemma follows (place : List String) (name : String) (rest : List String) : Follows place name rest := by
  by_cases hstay : name = "" ∨ name = "."
  · exact .moves fun t => by rw [walk, if_pos hstay]
  by_cases hup : name = ".."
  · exact .moves fun t => by rw [walk, if_neg hstay, if_pos hup]
  by_cases hlong : 255 < name.utf8ByteSize
  · exact .refused fun t => by rw [walk, if_neg hstay, if_neg hup, if_pos hlong]
  · exact .looksUp fun t => (if_neg hstay).trans ((if_neg hup).trans (if_neg hlong))

/-- A path that leads to where a file can be written leads to that file once it is there. -/
lemma walk_put {place names : List String} {rest : List String} {result : Place}
    (h : t.walk place .directory rest = .ok result) (hw : Writable result names) :
    t.node? names ≠ some .directory ∧
      (t.put names (.file contents)).walk place .directory rest = .ok (.taken names (.file contents)) := by
  induction rest generalizing place with
  | nil =>
    cases h
    cases hw
  | cons name rest ih =>
    cases follows place name rest with
    | moves hwalk =>
      rw [hwalk] at h ⊢
      exact ih h
    | refused hwalk =>
      rw [hwalk] at h
      cases h
    | looksUp hwalk =>
      rw [hwalk] at h ⊢
      have hplace : place ++ [name] ≠ [] := by simp
      rw [node?_put t names _ hplace]
      cases hnode : t.node? (place ++ [name]) with
      | none =>
        rw [hnode] at h
        dsimp only at h
        split at h
        · next hrest =>
          cases h
          obtain ⟨hslash, rfl⟩ := hw.free_inv
          obtain rfl : rest = [] := by simpa using hslash
          rw [hnode, if_pos rfl]
          exact ⟨nofun, rfl⟩
        · cases h
      | some node =>
        rw [hnode] at h
        cases node with
        | file old =>
          obtain ⟨rfl, rfl⟩ := walk_file_inv h
          cases hw
          rw [hnode, if_pos rfl]
          exact ⟨nofun, rfl⟩
        | barred directory answer =>
          cases walk_barred_inv h
          cases hw
        | directory =>
          obtain ⟨hnames, hput⟩ := ih h
          have hne : place ++ [name] ≠ names := by
            rintro rfl
            exact hnames hnode
          rw [if_neg hne]
          exact ⟨hnames, hput⟩

/-- A path is refused whatever the tree, or its names are followed from the root or from the working directory. -/
lemma locate_cases (path : String) :
    (∃ e, ∀ t : FileTree, t.locate path = .error e) ∨
    (∀ t : FileTree, t.locate path = t.walk [] .directory (names path)) ∨
    ∀ t : FileTree, t.locate path = t.walk t.cwd .directory (names path) := by
  by_cases hnul : path.toList.contains (Char.ofNat 0) = true
  · exact .inl ⟨_, fun t => by rw [locate, if_pos hnul]⟩
  by_cases hempty : path.isEmpty = true
  · exact .inl ⟨_, fun t => by rw [locate, if_neg hnul, if_pos hempty]⟩
  by_cases hlong : 4096 ≤ path.utf8ByteSize
  · exact .inl ⟨_, fun t => by rw [locate, if_neg hnul, if_neg hempty, if_pos hlong]⟩
  by_cases habsolute : path.startsWith "/" = true
  · exact .inr (.inl fun t => by rw [locate, if_neg hnul, if_neg hempty, if_neg hlong, if_pos habsolute])
  · exact .inr (.inr fun t => by rw [locate, if_neg hnul, if_neg hempty, if_neg hlong, if_neg habsolute])

lemma locate_put {names : List String} {result : Place} (h : t.locate path = .ok result) (hw : Writable result names) :
    (t.put names (.file contents)).locate path = .ok (.taken names (.file contents)) := by
  rcases locate_cases path with ⟨e, hrefused⟩ | hroot | hcwd
  · rw [hrefused] at h
    cases h
  · rw [hroot] at h ⊢
    exact (walk_put h hw).2
  · rw [hcwd] at h ⊢
    exact (walk_put h hw).2

/-- What comes of filling a file: it holds everything, it is not even opened, or there is no room for all of it. -/
inductive Fills (t : FileTree) (names : List String) (contents : ByteArray) : Except SystemError Unit × FileTree → Prop where
  | whole : Fills t names contents (.ok (), t.put names (.file contents))
  | refused {e} : Fills t names contents (.error e, t)
  | cut {most e} : most < contents.size → Fills t names contents (.error e, t.put names (.file (contents.extract 0 most)))

lemma fills (t : FileTree) (names : List String) (contents : ByteArray) : Fills t names contents (t.fill names contents) := by
  unfold fill
  split
  · exact .refused
  · split
    · split
      · next hless => exact .cut hless
      · exact .whole
    · exact .whole

/-- What comes of a write: it is refused, or the file that its path leads to is filled. -/
inductive Writes (t : FileTree) (path : String) (contents : ByteArray) : Except SystemError Unit × FileTree → Prop where
  | refused {e} : Writes t path contents (.error e, t)
  | fills {place names result} :
    t.locate path = .ok place →
    Writable place names →
    Fills t names contents result →
    Writes t path contents result

lemma writes (t : FileTree) (path : String) (contents : ByteArray) : Writes t path contents (t.write path contents) := by
  unfold write
  split
  · exact .refused
  · exact .refused
  · next hl => exact .fills hl .free (t.fills _ contents)
  · exact .refused
  · exact .refused
  · exact .refused
  · next hl => exact .fills hl .taken (t.fills _ contents)

/-- What can be written is written at a place that the path leads to. -/
lemma write_inv (h : t.write path contents = (.ok (), u)) :
    ∃ place names, t.locate path = .ok place ∧ Writable place names ∧ u = t.put names (.file contents) := by
  have hwrites := t.writes path contents
  rw [h] at hwrites
  cases hwrites with
  | fills hl hw hfills =>
    cases hfills
    exact ⟨_, _, hl, hw, rfl⟩

/-- A file that was put where it can be written is read back with what was put there. -/
lemma read_put {place : Place} {names : List String} (hl : t.locate path = .ok place) (hw : Writable place names) :
    (t.put names (.file contents)).read path = .ok contents := by
  rw [read, locate_put hl hw]

/-- A file that could be written is read back as it was written. -/
theorem read_write (h : t.write path contents = (.ok (), u)) : u.read path = .ok contents := by
  obtain ⟨place, names, hl, hw, rfl⟩ := write_inv h
  exact read_put hl hw

theorem read_writeWithParents (h : t.writeWithParents path contents = (.ok (), u)) : u.read path = .ok contents := by
  unfold writeWithParents at h
  split at h
  · cases h
  · exact read_write h

/-- A text that could be written is read back as it was written. -/
theorem readText_writeWithParents {text : String} (h : t.writeWithParents path text.toUTF8 = (.ok (), u)) :
    u.readText path = .ok text := by
  simp only [readText, read_writeWithParents h, Text.Utf8.fromUTF8?_toUTF8]

lemma isDirectory_inv (h : t.isDirectory path = true) :
    ∃ names, t.locate path = .ok (.taken names .directory) ∨
      ∃ answer, t.locate path = .ok (.taken names (.barred true answer)) := by
  unfold isDirectory at h
  split at h
  · next names hl => exact ⟨names, .inl hl⟩
  · next names answer hl => exact ⟨names, .inr ⟨answer, hl⟩⟩
  · cases h

/-- A directory right below the place that the path starts from is not written as a file. -/
theorem writeWithParents_of_isDirectory (hparts : (parts path).2.dropLast = []) (h : t.isDirectory path = true) :
    t.writeWithParents path contents = (.error .isDirectory, t) := by
  have hparents : t.makeParents path = (.ok (), t) := by
    simp [makeParents, hparts, makeDirectories]
  obtain ⟨names, hl | ⟨answer, hl⟩⟩ := isDirectory_inv h
  all_goals simp only [writeWithParents, hparents, write, hl]

end Cadence.FileTree
