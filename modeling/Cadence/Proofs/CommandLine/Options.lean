import Cadence.CommandLine.Words
import Mathlib.Data.List.Nodup

/-!
# The options among the words

What the words of a command line give: parameters, each with the text of its value (`options`). The settings that are
read are these, one after the other, and no parameter is set twice (`settings_takes`), so a command line that is
accepted is the name of an operation followed by options (`command_inv`).
-/

namespace Cadence.CommandLine

/-- The parameters that words after the name of an operation give, each with the text of its value, which for a switch
is empty. -/
def options (op : Operation) : List String → List (Param × String)
  | [] => []
  | word :: words =>
    match Word.ofChars word.toList with
    | .long name value =>
      match Param.ofName? op (String.ofList name), value with
      | none, _ => []
      | some p, some text => (p, String.ofList text) :: options op words
      | some p, none =>
        if p.isSwitch then (p, "") :: options op words
        else match words with
          | [] => []
          | text :: words => (p, text) :: options op words
    | _ => []

/-- The options that words give which follow an open parameter, that one included. -/
def optionsAfter (op : Operation) : Option Open → List String → List (Param × String)
  | none, words => options op words
  | some ⟨p, some text⟩, words => (p, text) :: options op words
  | some ⟨_, none⟩, [] => []
  | some ⟨p, none⟩, text :: words => (p, text) :: options op words

/-- From one list of settings to another, each of the given options was read and set what was not set before. -/
inductive Takes : List Setting → List (Param × String) → List Setting → Prop where
  | nil {ss} : Takes ss [] ss
  | cons {ss p text s given after} :
    Setting.read p text = .ok s →
    (∀ t ∈ ss, t.param ≠ p) →
    Takes (ss ++ [s]) given after →
    Takes ss ((p, text) :: given) after

/-- Every setting that was taken is what some text reads as. -/
lemma Takes.mem_read {ss after : List Setting} {given} (h : Takes ss given after) {s : Setting} (hs : s ∈ after) :
    s ∈ ss ∨ ∃ text, Setting.read s.param text = .ok s := by
  induction h with
  | nil => exact .inl hs
  | @cons ss p text t given after hread _ _ ih =>
    rcases ih hs with hmem | hread
    · rcases List.mem_append.mp hmem with hmem | hmem
      · exact .inl hmem
      · obtain rfl := List.mem_singleton.mp hmem
        exact .inr ⟨text, by rw [Setting.read_param hread]; exact hread⟩
    · exact .inr hread

/-- Every option that was taken could be read. -/
lemma Takes.lookup_read {ss after : List Setting} {given} (h : Takes ss given after) {p : Param} {text : String}
    (htext : given.lookup p = some text) : ∃ s, Setting.read p text = .ok s := by
  induction h with
  | nil => cases htext
  | @cons ss q text' s given after hread _ _ ih =>
    rw [List.lookup_cons] at htext
    split at htext
    · next hq =>
      obtain rfl := beq_iff_eq.mp hq
      obtain rfl := Option.some.inj htext
      exact ⟨s, hread⟩
    · exact ih htext

/-- No parameter is set twice. -/
lemma Takes.nodup {ss after : List Setting} {given} (h : Takes ss given after) (hss : (ss.map Setting.param).Nodup) :
    (after.map Setting.param).Nodup := by
  induction h with
  | nil => exact hss
  | @cons ss p text s given after hread hnew _ ih =>
    apply ih
    rw [List.map_append, List.map_singleton, ← List.concat_eq_append]
    refine hss.concat fun hmem => ?_
    obtain ⟨t, ht, hp⟩ := List.mem_map.mp hmem
    exact hnew t ht (hp.trans (Setting.read_param hread))

/-- What is set of a parameter is what its option reads as, unless it was set before. -/
lemma Takes.find?_eq {ss after : List Setting} {given} (h : Takes ss given after) (p : Param) :
    after.find? (·.param == p)
      = (ss.find? (·.param == p)).or ((given.lookup p).bind fun text => (Setting.read p text).toOption) := by
  induction h with
  | nil => simp
  | @cons ss q text s given after hread hnew _ ih =>
    rw [ih, List.find?_append, Option.or_assoc]
    congr 1
    have hs : s.param = q := Setting.read_param hread
    by_cases hq : p = q
    · subst hq
      simp [hs, hread, Except.toOption]
    · have hne : (p == q) = false := by simpa using hq
      simp [hs, List.lookup_cons, hne, Ne.symm hq]

namespace Reading

/-- A parameter that is accepted had a value that could be read, and was not set before. -/
lemma accept_inv {r t : Reading} {p : Param} {value} (h : r.accept p value = .ok t) :
    ∃ text s, value = some text ∧ Setting.read p text = .ok s ∧ (∀ u ∈ r.settings, u.param ≠ p) ∧
      t = ⟨r.settings ++ [s], none⟩ := by
  unfold accept at h
  split at h
  · cases h
  · next text =>
    split at h
    · cases h
    · next hhas =>
      split at h
      · next s hread =>
        cases h
        refine ⟨text, s, rfl, hread, fun u hu hp => hhas ?_, rfl⟩
        exact List.any_eq_true.mpr ⟨u, hu, beq_iff_eq.mpr hp⟩
      · cases h

/-- What is settled had nothing open, or an open parameter with a value that is accepted. -/
lemma settle_inv {r t : Reading} (h : r.settle = .ok t) :
    r.pending = none ∧ t = r ∨
    ∃ p text s, r.pending = some ⟨p, some text⟩ ∧ Setting.read p text = .ok s ∧ (∀ u ∈ r.settings, u.param ≠ p) ∧
      t = ⟨r.settings ++ [s], none⟩ := by
  unfold settle at h
  split at h
  · next hp => cases h; exact .inl ⟨hp, rfl⟩
  · next o ho =>
    obtain ⟨text, s, hv, hread, hnew, rfl⟩ := accept_inv h
    obtain ⟨p, value⟩ := o
    obtain rfl : value = some text := hv
    exact .inr ⟨p, text, s, ho, hread, hnew, rfl⟩

/-- What is taken after a parameter is settled is taken together with it. -/
lemma takes_of_settle {op : Operation} {r t : Reading} {words : List String} {after} (h : r.settle = .ok t)
    (htakes : Takes t.settings (options op words) after) :
    Takes r.settings (optionsAfter op r.pending words) after := by
  rcases settle_inv h with ⟨hp, rfl⟩ | ⟨p, text, s, hp, hread, hnew, rfl⟩
  · rw [hp]
    exact htakes
  · rw [hp]
    exact .cons hread hnew htakes

/-- The settings at the end of the words are those that were read. -/
lemma finish_inv {r : Reading} {ss : List Setting} (h : r.finish = .ok ss) :
    ∃ t, r.settle = .ok t ∧ ss = t.settings := by
  unfold finish at h
  cases hs : r.settle with
  | error e => rw [hs] at h; cases h
  | ok t =>
    rw [hs] at h
    simp only [Except.bind] at h
    split at h
    · cases h
    · cases h; exact ⟨t, rfl, rfl⟩

/-- A word that is no name is the value of the open parameter. -/
lemma plain_inv {r t : Reading} {word : String} (h : r.plain word = .ok t) :
    ∃ p, r.pending = some ⟨p, none⟩ ∧ t = { r with pending := some ⟨p, some word⟩ } := by
  unfold plain at h
  split at h
  · next p hp => cases h; exact ⟨p, hp, rfl⟩
  · cases h

/-- What becomes of a reading at a long name: a switch is set, a parameter with its value is set, or one without is
opened. -/
inductive Named (r : Reading) (op : Operation) (name : String) : Option String → Reading → Prop where
  | switch {p u t} :
    Param.ofName? op name = some p →
    p.isSwitch = true →
    r.settle = .ok u →
    u.accept p (some "") = .ok t →
    Named r op name none t
  | joined {p u t value} :
    Param.ofName? op name = some p →
    p.isSwitch = false →
    r.settle = .ok u →
    u.accept p (some value) = .ok t →
    Named r op name (some value) t
  | apart {p u} :
    Param.ofName? op name = some p →
    p.isSwitch = false →
    r.settle = .ok u →
    Named r op name none { u with pending := some ⟨p, none⟩ }

/-- A long name that is read is one of a parameter. -/
lemma long_inv {r t : Reading} {op : Operation} {name : String} {value} (h : r.long op name value = .ok t) :
    Named r op name value t := by
  unfold long at h
  cases hp : Param.ofName? op name with
  | none =>
    rw [hp] at h
    dsimp only at h
    split at h
    · split at h
      · cases h
      · cases hs : r.settle <;> rw [hs] at h <;> cases h
    · cases h
  | some p =>
    rw [hp] at h
    dsimp only at h
    cases hs : r.settle with
    | error e =>
      rw [hs] at h
      split at h <;> split at h <;> cases h
    | ok u =>
      rw [hs] at h
      split at h
      · next hswitch =>
        split at h
        · cases h
        · exact .switch hp hswitch hs h
      · next hswitch =>
        have hswitch : p.isSwitch = false := by simpa using hswitch
        split at h
        · exact .joined hp hswitch hs h
        · cases h
          exact .apart hp hswitch hs

end Reading

/-- The settings that are read are those that the words give, with the open parameter in front. -/
theorem settings_takes {op : Operation} {words : List String} {r : Reading} {ss : List Setting}
    (h : settings op r words = .ok ss) : Takes r.settings (optionsAfter op r.pending words) ss := by
  induction words generalizing r with
  | nil =>
    obtain ⟨t, ht, rfl⟩ := Reading.finish_inv h
    exact Reading.takes_of_settle ht .nil
  | cons word words ih =>
    unfold settings at h
    cases hw : Word.ofChars word.toList with
    | escape =>
      rw [hw] at h
      cases words with
      | nil =>
        obtain ⟨t, ht, rfl⟩ := Reading.finish_inv h
        refine Reading.takes_of_settle ht ?_
        rw [options, hw]
        exact .nil
      | cons => cases h
    | long name value =>
      rw [hw] at h
      dsimp only at h
      split at h
      · next t ht =>
        have hn := Reading.long_inv ht
        generalize hv : value.map String.ofList = v at hn
        cases hn with
        | switch hp hswitch hs ha =>
          obtain rfl := Option.map_eq_none_iff.mp hv
          obtain ⟨text, s, htext, hread, hnew, rfl⟩ := Reading.accept_inv ha
          cases htext
          refine Reading.takes_of_settle hs ?_
          rw [options, hw]
          simp only [hp, hswitch, if_true]
          exact .cons hread hnew (ih h)
        | joined hp hswitch hs ha =>
          obtain ⟨v, rfl, rfl⟩ := Option.map_eq_some_iff.mp hv
          obtain ⟨text, s, htext, hread, hnew, rfl⟩ := Reading.accept_inv ha
          cases htext
          refine Reading.takes_of_settle hs ?_
          rw [options, hw]
          simp only [hp]
          exact .cons hread hnew (ih h)
        | apart hp hswitch hs =>
          obtain rfl := Option.map_eq_none_iff.mp hv
          refine Reading.takes_of_settle hs ?_
          have htakes := ih h
          rw [options, hw]
          simp only [hp, hswitch]
          cases words <;> exact htakes
      · cases h
    | short c =>
      rw [hw] at h
      dsimp only at h
      split at h
      · cases hs : r.settle with
        | error e => rw [hs] at h; cases h
        | ok t => rw [hs] at h; cases h
      · cases h
    | plain =>
      rw [hw] at h
      dsimp only at h
      split at h
      · next t ht =>
        obtain ⟨p, hp, rfl⟩ := Reading.plain_inv ht
        rw [hp]
        exact ih h
      · cases h

/-- A command line that is accepted names an operation, and sets its parameters to what the options after it read
as. -/
theorem command_inv {api : String} {words : List String} {c : Command} (h : command api words = .ok c) :
    ∃ ss, Takes [] (options c.operation words.tail) ss ∧ c = ss.foldl Command.assign (.default c.operation api) := by
  cases words with
  | nil => cases h
  | cons name rest =>
    simp only [command] at h
    cases hw : Word.ofChars name.toList with
    | plain =>
      rw [hw] at h
      dsimp only at h
      split at h
      · cases h
      · split at h
        · cases h
        · next op hop =>
          have hc := operationCommand_operation h
          obtain ⟨ss, hss, rfl⟩ := Setting.map_eq_ok h
          rw [hc]
          exact ⟨ss, settings_takes hss, rfl⟩
    | _ =>
      rw [hw] at h
      cases h

end Cadence.CommandLine
