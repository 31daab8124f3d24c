import Cadence.Proofs.Text.Trim
import Cadence.Text.Lines
import Mathlib.Logic.Relation

/-!
# Trimmed lines

The lines of a text without the blanks around them and without the blank ones (`kept`). They do not see how a line ends
(`trim_dropReturn`), so a line feed between two texts separates what is kept of them (`kept_append`). Nor do they see how
a text is laid out in lines otherwise: `SameLines` texts keep the same (`SameLines.kept_eq`).
-/

namespace Cadence.Text

/-- A carriage return before the end of a line is a blank like others. -/
lemma trim_dropReturn (line : List Char) : trim (dropReturn line).reverse = trim line.reverse := by
  unfold dropReturn
  split
  · next r =>
    rw [List.reverse_cons]
    exact (trim_append (.singleton (by decide)) r.reverse).symm
  · rfl

/-- The lines of a text without the blanks around them, the blank ones left out. -/
def kept (s : List Char) : List (List Char) := ((lines s).map trim).filter fun l => !l.isEmpty

/-- What is kept of a text, given the reversed beginning of the current line. -/
private def keptFrom (line s : List Char) : List (List Char) :=
  ((linesFrom line s).map trim).filter fun l => !l.isEmpty

private lemma keptFrom_nil (line : List Char) :
    keptFrom line [] = [trim line.reverse].filter fun l => !l.isEmpty := by
  cases line with
  | nil => rfl
  | cons c r => rfl

private lemma keptFrom_newline (line s : List Char) :
    keptFrom line ('\n' :: s) = keptFrom line [] ++ keptFrom [] s := by
  rw [keptFrom_nil, ← trim_dropReturn, keptFrom, linesFrom, if_pos rfl, List.map_cons, ← List.singleton_append,
    List.filter_append]
  rfl

private lemma keptFrom_cons {c : Char} (h : c ≠ '\n') (line s : List Char) :
    keptFrom line (c :: s) = keptFrom (c :: line) s := by
  rw [keptFrom, linesFrom, if_neg h, keptFrom]

private lemma keptFrom_append (line s t : List Char) :
    keptFrom line (s ++ '\n' :: t) = keptFrom line s ++ keptFrom [] t := by
  induction s generalizing line with
  | nil => exact keptFrom_newline line t
  | cons c s ih =>
    by_cases h : c = '\n'
    · subst h
      rw [List.cons_append, keptFrom_newline, ih, keptFrom_newline line s, List.append_assoc]
    · rw [List.cons_append, keptFrom_cons h, ih, keptFrom_cons h]

/-- A line feed separates what is kept of the texts on both sides of it. -/
lemma kept_append (s t : List Char) : kept (s ++ '\n' :: t) = kept s ++ kept t := keptFrom_append [] s t

lemma kept_unlines (ls : List (List Char)) : kept (unlines ls) = ls.flatMap kept := by
  induction ls with
  | nil => rfl
  | cons l ls ih =>
    have happend : unlines (l :: ls) = l ++ '\n' :: unlines ls := by simp [unlines]
    rw [happend, kept_append, ih, List.flatMap_cons]

/-- Within a line nothing is separated. -/
private lemma keptFrom_of_not_mem {s : List Char} (h : '\n' ∉ s) (line : List Char) :
    keptFrom line s = [trim (line.reverse ++ s)].filter fun l => !l.isEmpty := by
  induction s generalizing line with
  | nil => rw [keptFrom_nil, List.append_nil]
  | cons c s ih =>
    have hc : c ≠ '\n' := fun e => h (e ▸ List.mem_cons_self)
    have hs : '\n' ∉ s := fun m => h (List.mem_cons_of_mem _ m)
    rw [keptFrom_cons hc, ih hs, List.reverse_cons, List.append_assoc, List.singleton_append]

lemma kept_of_not_mem {s : List Char} (h : '\n' ∉ s) : kept s = [trim s].filter fun l => !l.isEmpty :=
  keptFrom_of_not_mem h []

private lemma not_mem_linesFrom {line s l : List Char} (hline : '\n' ∉ line) (h : l ∈ linesFrom line s) : '\n' ∉ l := by
  induction s generalizing line with
  | nil =>
    rw [linesFrom] at h
    split at h
    · cases h
    · rw [List.mem_singleton.mp h, List.mem_reverse]
      exact hline
  | cons c s ih =>
    rw [linesFrom] at h
    split at h
    · rcases List.mem_cons.mp h with rfl | h
      · rw [List.mem_reverse]
        unfold dropReturn
        split
        · exact fun hm => hline (List.mem_cons_of_mem _ hm)
        · exact hline
      · exact ih List.not_mem_nil h
    · next hc => exact ih (fun hm => (List.mem_cons.mp hm).elim (fun e => hc e.symm) hline) h

/-- What is kept of a text is not empty, has no line feed, and no blanks at its ends. -/
lemma mem_kept {s l : List Char} (h : l ∈ kept s) : l ≠ [] ∧ '\n' ∉ l ∧ trim l = l := by
  obtain ⟨hl, hne⟩ := List.mem_filter.mp h
  obtain ⟨line, hline, rfl⟩ := List.mem_map.mp hl
  refine ⟨by simpa using hne, fun hm => ?_, trim_trim line⟩
  have hsub : trim line ⊆ line :=
    List.Subset.trans (trim_isPrefix_trimStart line).subset (List.dropWhile_sublist isBlank).subset
  exact not_mem_linesFrom List.not_mem_nil hline (hsub hm)

lemma kept_of_blanks {b : List Char} (h : Blanks b) (hline : '\n' ∉ b) : kept b = [] := by
  rw [kept_of_not_mem hline, h.trim_eq_nil]
  rfl

private lemma keptFrom_append_blank {c : Char} (h : isBlank c = true) (hc : c ≠ '\n') (line s : List Char) :
    keptFrom line (s ++ [c]) = keptFrom line s := by
  induction s generalizing line with
  | nil => rw [List.nil_append, keptFrom_cons hc, keptFrom_nil, List.reverse_cons, trim_append (.singleton h), keptFrom_nil]
  | cons d s ih =>
    by_cases hd : d = '\n'
    · subst hd
      rw [List.cons_append, keptFrom_newline, ih, ← keptFrom_newline]
    · rw [List.cons_append, keptFrom_cons hd, ih, ← keptFrom_cons hd]

/-- One more blank at the end of a text changes nothing of what is kept. -/
lemma kept_append_blank {c : Char} (h : isBlank c = true) (hc : c ≠ '\n') (s : List Char) : kept (s ++ [c]) = kept s :=
  keptFrom_append_blank h hc [] s

/-- One difference in how two texts are laid out in lines. -/
inductive Relaid : List Char → List Char → Prop where
  | carriageReturn {s t} : Relaid (s ++ '\n' :: t) (s ++ '\r' :: '\n' :: t)
  | finalBreak {s} : Relaid s (s ++ ['\n'])
  | blankFirst {b t} : Blanks b → '\n' ∉ b → Relaid t (b ++ '\n' :: t)
  | blankLater {s b t} : Blanks b → '\n' ∉ b → Relaid (s ++ '\n' :: t) (s ++ '\n' :: (b ++ '\n' :: t))

/-- Texts that differ in nothing but their layout: in whether lines end with a carriage return, in whether the last line
ends with a break, and in blank lines. -/
def SameLines : List Char → List Char → Prop := Relation.EqvGen Relaid

lemma Relaid.kept_eq {s t : List Char} (h : Relaid s t) : kept s = kept t := by
  cases h with
  | @carriageReturn s t =>
    calc kept (s ++ '\n' :: t) = kept s ++ kept t := kept_append s t
      _ = kept (s ++ ['\r']) ++ kept t := by rw [kept_append_blank (by decide) (by decide)]
      _ = kept (s ++ '\r' :: '\n' :: t) := by rw [← kept_append, List.append_assoc, List.singleton_append]
  | finalBreak =>
    rw [kept_append]
    exact (List.append_nil _).symm
  | blankFirst hb hline => rw [kept_append, kept_of_blanks hb hline, List.nil_append]
  | blankLater hb hline => rw [kept_append, kept_append, kept_append, kept_of_blanks hb hline, List.nil_append]

/-- The layout of a text is not seen in what is kept of its lines. -/
theorem SameLines.kept_eq {s t : List Char} (h : SameLines s t) : kept s = kept t :=
  (eq_equivalence.comap kept).eqvGen_iff.mp (Relation.EqvGen.mono (fun _ _ => Relaid.kept_eq) _ _ h)

end Cadence.Text
