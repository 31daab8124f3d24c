import Cadence.Proofs.Json.RoundTrip
import Cadence.Report.Line
import Cadence.Text.Lines

/-!
# Reading the lines for machines

What a program that reads the output of a run finds on a line (`Entry`), and on the last one (`Closing`). A report and a
summary are written so that their figures are found again, whatever the path of the identifiers looks like
(`Entry.read?_progressValue`, `Closing.read?_summaryValue`), on one line each (`isStream_lines`), and nothing else can
be found in them (`IsStream.unique`).
-/

namespace Cadence

namespace Json

/-- The value of the first field of an object with a name. -/
def Value.field? (name : String) : Value → Option Value
  | .object fields => (fields.find? fun f => f.1 = some name).map Prod.snd
  | _ => none

/-- The content of a string. -/
def Value.text? : Value → Option String
  | .string text => text
  | _ => none

/-- A number that is written in digits. -/
def Value.count? : Value → Option Nat
  | .number literal => if literal.toList.all Char.isDigit then some (Quantity.digitsValue literal.toList) else none
  | _ => none

/-- The whole number in a field. -/
def Value.countAt? (name : String) (v : Value) : Option Nat := (v.field? name).bind Value.count?

/-- The text in a field. -/
def Value.textAt? (name : String) (v : Value) : Option String := (v.field? name).bind Value.text?

@[simp]
lemma count?_count (n : Nat) : (Value.count n).count? = some n := by
  have hdigits : (toString n).toList.all Char.isDigit = true := by
    rw [toList_toString]
    exact List.all_eq_true.mpr (isDigits_toDigits n).digit
  rw [Value.count, Value.count?, if_pos hdigits, digitsValue_toString]

@[simp]
lemma text?_text (s : String) : (Value.text s).text? = some s := rfl

@[simp]
lemma field?_record_nil (name : String) : (Value.record []).field? name = none := rfl

@[simp]
lemma field?_record_cons (name key : String) (v : Value) (fields : List (String × Value)) :
    (Value.record ((key, v) :: fields)).field? name
      = if key = name then some v else (Value.record fields).field? name := by
  simp only [Value.record, Value.field?, List.map_cons, List.find?_cons, Option.some.injEq]
  split
  · next h => simp [of_decide_eq_true h]
  · next h => simp [of_decide_eq_false h]

lemma isSound_count (n : Nat) : (Value.count n).IsSound := isNumber_toString n

lemma isSound_text (s : String) : (Value.text s).IsSound := rfl

/-- An object can be written if the values of its fields can. -/
lemma isSound_record {fields : List (String × Value)} (h : ∀ f ∈ fields, f.2.IsSound) :
    (Value.record fields).IsSound := by
  show SoundFields (fields.map fun f => (some f.1, f.2))
  induction fields with
  | nil => trivial
  | cons f fields ih =>
    exact ⟨rfl, h f List.mem_cons_self, ih fun g hg => h g (List.mem_cons_of_mem f hg)⟩

end Json

namespace Report
open Json

/-- What every line tells: its kind, the number of reports up to it, and how the operations stand. -/
structure Entry where
  kind : String
  tick : Nat
  sent : Nat
  completed : Nat
  failed : Nat
  inFlight : Nat
deriving DecidableEq

/-- What the last line tells besides: how many reports there were, and which file the identifiers were written to, if
any was. -/
structure Closing extends Entry where
  reportsEmitted : Nat
  identifiers : Option Persisted
deriving DecidableEq

/-- No count of operations is larger in `e` than in `f`. -/
structure Entry.Precedes (e f : Entry) : Prop where
  sent : e.sent ≤ f.sent
  completed : e.completed ≤ f.completed
  failed : e.failed ≤ f.failed

/-- What an object tells. -/
def Entry.read? (v : Value) : Option Entry := do
  let kind ← v.textAt? "kind"
  let tick ← v.countAt? "tick"
  let sent ← v.countAt? "requestsSent"
  let completed ← v.countAt? "completed"
  let failed ← v.countAt? "failed"
  let inFlight ← v.countAt? "inFlight"
  return ⟨kind, tick, sent, completed, failed, inFlight⟩

/-- Where the identifiers were written: null if nowhere. -/
def readPersisted? : Value → Option (Option Persisted)
  | .null => some none
  | v => do
    let path ← v.textAt? "path"
    let count ← v.countAt? "count"
    return some ⟨path, count⟩

/-- What the object on the last line tells. -/
def Closing.read? (v : Value) : Option Closing := do
  let entry ← Entry.read? v
  let reportsEmitted ← v.countAt? "reportsEmitted"
  let identifiers ← (v.field? "identifiers").bind readPersisted?
  return ⟨entry, reportsEmitted, identifiers⟩

/-- What the line of a snapshot tells. -/
def Entry.ofSnapshot (kind : String) (s : Snapshot) : Entry :=
  ⟨kind, s.tick, s.sent, s.completed, s.failed, s.inFlight⟩

variable {operation : Operation} {s : Snapshot} {summary : Run.Summary} {persisted : Option Persisted}

lemma isSound_numberValue (x : Float) : (numberValue x).IsSound := by
  unfold numberValue
  split
  · next literal h => exact Decimal.isNumber_shortest h
  · trivial

lemma isSound_optionalNumber (x : Option Float) : (optionalNumber x).IsSound := by
  cases x with
  | none => trivial
  | some x => exact isSound_numberValue x

lemma isSound_lineFields {kind : String} {f : String × Value} (h : f ∈ lineFields kind operation) : f.2.IsSound := by
  simp only [lineFields, List.mem_cons, List.not_mem_nil, or_false] at h
  rcases h with rfl | rfl | rfl
  all_goals exact isSound_text _

lemma isSound_snapshotFields {f : String × Value} (h : f ∈ snapshotFields s) : f.2.IsSound := by
  simp only [snapshotFields, List.mem_cons, List.not_mem_nil, or_false] at h
  rcases h with rfl | rfl | rfl | rfl | rfl | rfl | rfl | rfl | rfl | rfl | rfl | rfl
  all_goals first | exact isSound_count _ | exact isSound_optionalNumber _ | exact isSound_numberValue _

lemma isSound_persistedValue (persisted : Option Persisted) : (persistedValue persisted).IsSound := by
  cases persisted with
  | none => trivial
  | some p => exact ⟨rfl, isSound_text _, rfl, isSound_count _, trivial⟩

/-- A report can be written, whatever its figures are. -/
theorem isSound_progressValue : (progressValue operation s).IsSound := by
  apply isSound_record
  intro f hf
  rcases List.mem_append.mp hf with hf | hf
  · exact isSound_lineFields hf
  · exact isSound_snapshotFields hf

/-- A summary can be written, whatever its figures are and wherever the identifiers went. -/
theorem isSound_summaryValue : (summaryValue operation summary persisted).IsSound := by
  apply isSound_record
  intro f hf
  simp only [List.mem_append, List.mem_cons, List.not_mem_nil, or_false] at hf
  rcases hf with ((hf | rfl | rfl) | hf) | rfl
  · exact isSound_lineFields hf
  · exact isSound_text _
  · exact isSound_count _
  · exact isSound_snapshotFields hf
  · exact isSound_persistedValue persisted

/-- The figures of a report are found in it. -/
theorem Entry.read?_progressValue : Entry.read? (progressValue operation s) = some (.ofSnapshot "progress" s) := by
  simp [Entry.read?, progressValue, lineFields, snapshotFields, Value.textAt?, Value.countAt?, Entry.ofSnapshot]

lemma readPersisted?_persistedValue (persisted : Option Persisted) :
    readPersisted? (persistedValue persisted) = some persisted := by
  cases persisted with
  | none => rfl
  | some p =>
    show (do
      let path ← (Value.record [("path", .text p.path), ("count", .count p.count)]).textAt? "path"
      let count ← (Value.record [("path", .text p.path), ("count", .count p.count)]).countAt? "count"
      return some (⟨path, count⟩ : Persisted)) = _
    simp [Value.textAt?, Value.countAt?]

/-- The figures of a summary are found in it, and where the identifiers went. -/
theorem Closing.read?_summaryValue : Closing.read? (summaryValue operation summary persisted)
    = some ⟨.ofSnapshot "summary" summary.snapshot, summary.reportsEmitted, persisted⟩ := by
  have hentry : Entry.read? (summaryValue operation summary persisted)
      = some (.ofSnapshot "summary" summary.snapshot) := by
    simp [Entry.read?, summaryValue, lineFields, snapshotFields, Value.textAt?, Value.countAt?, Entry.ofSnapshot]
  have hreports : (summaryValue operation summary persisted).countAt? "reportsEmitted"
      = some summary.reportsEmitted := by
    simp [summaryValue, lineFields, snapshotFields, Value.countAt?]
  have hidentifiers : (summaryValue operation summary persisted).field? "identifiers"
      = some (persistedValue persisted) := by
    simp [summaryValue, lineFields, snapshotFields]
  simp only [Closing.read?, hentry, hreports, hidentifiers, Option.bind_eq_bind, Option.bind_some, Option.pure_def,
    readPersisted?_persistedValue]

/-- A text of nothing but lines, each ended by a line feed and free of other control characters. Every line is one
object: the last one tells `closing`, those before it tell `reports`, one after the other. -/
def IsStream (output : String) (reports : List Entry) (closing : Closing) : Prop :=
  ∃ (before : List (List Char)) (last : List Char), output.toList = Text.unlines (before ++ [last]) ∧
    (∀ l ∈ before ++ [last], ∀ c ∈ l, 32 ≤ c.toNat) ∧
    before.map (fun l => (Value.parse? l).bind Entry.read?) = reports.map some ∧
    (Value.parse? last).bind Closing.read? = some closing

/-- A line ends at its line feed, and nowhere before. -/
lemma line_append_inj {l m r s : List Char} (hl : '\n' ∉ l) (hm : '\n' ∉ m) (h : l ++ '\n' :: r = m ++ '\n' :: s) :
    l = m ∧ r = s := by
  induction l generalizing m with
  | nil =>
    cases m with
    | nil => exact ⟨rfl, (List.cons.inj h).2⟩
    | cons c m => exact absurd (List.mem_cons.mpr (.inl (List.cons.inj h).1)) hm
  | cons c l ih =>
    cases m with
    | nil => exact absurd (List.mem_cons.mpr (.inl (List.cons.inj h).1.symm)) hl
    | cons d m =>
      obtain ⟨rfl, htail⟩ := List.cons.inj h
      obtain ⟨rfl, hrest⟩ :=
        ih (fun hc => hl (List.mem_cons_of_mem _ hc)) (fun hc => hm (List.mem_cons_of_mem _ hc)) htail
      exact ⟨rfl, hrest⟩

/-- Lines are found again in their text. -/
lemma unlines_inj {ls ms : List (List Char)} (hl : ∀ l ∈ ls, '\n' ∉ l) (hm : ∀ m ∈ ms, '\n' ∉ m)
    (h : Text.unlines ls = Text.unlines ms) : ls = ms := by
  have hcons : ∀ (l : List Char) (r : List (List Char)), Text.unlines (l :: r) = l ++ '\n' :: Text.unlines r := by
    intro l r
    simp [Text.unlines]
  induction ls generalizing ms with
  | nil =>
    cases ms with
    | nil => rfl
    | cons m ms =>
      rw [hcons] at h
      cases m <;> cases h
  | cons l ls ih =>
    cases ms with
    | nil =>
      rw [hcons] at h
      cases l <;> cases h
    | cons m ms =>
      rw [hcons, hcons] at h
      obtain ⟨rfl, hrest⟩ := line_append_inj (hl l List.mem_cons_self) (hm m List.mem_cons_self) h
      rw [ih (fun l hl' => hl l (List.mem_cons_of_mem _ hl')) (fun m hm' => hm m (List.mem_cons_of_mem _ hm')) hrest]

/-- A stream tells one thing only. -/
theorem IsStream.unique {output : String} {reports reports' : List Entry} {closing closing' : Closing}
    (h : IsStream output reports closing) (h' : IsStream output reports' closing') :
    reports = reports' ∧ closing = closing' := by
  obtain ⟨before, last, htext, hprintable, hbefore, hlast⟩ := h
  obtain ⟨before', last', htext', hprintable', hbefore', hlast'⟩ := h'
  have hfeed : ∀ ls : List (List Char), (∀ l ∈ ls, ∀ c ∈ l, 32 ≤ c.toNat) → ∀ l ∈ ls, '\n' ∉ l :=
    fun ls hls l hl hc => absurd (hls l hl '\n' hc) (by decide)
  have hlines := unlines_inj (hfeed _ hprintable) (hfeed _ hprintable') (htext.symm.trans htext')
  obtain ⟨rfl, hsame⟩ := List.append_inj' hlines rfl
  obtain rfl := List.singleton_inj.mp hsame
  refine ⟨?_, Option.some.inj (hlast.symm.trans hlast')⟩
  exact (List.map_inj_right fun _ _ => Option.some.inj).mp (hbefore.symm.trans hbefore')

lemma toList_line (v : Value) : (line v).toList = v.render ++ ['\n'] := by
  simp [line, Value.compact]

lemma toList_join_line (values : List Value) :
    (String.join (values.map line)).toList = Text.unlines (values.map Value.render) := by
  induction values with
  | nil => rfl
  | cons v values ih =>
    rw [List.map_cons, String.join_cons, String.toList_append, ih, toList_line]
    simp [Text.unlines]

/-- Reports and a summary after them are printed as a stream of lines. -/
theorem isStream_lines (operation : Operation) (reports : List Snapshot) (summary : Run.Summary)
    (persisted : Option Persisted) :
    IsStream (String.join (reports.map fun s => line (progressValue operation s))
        ++ line (summaryValue operation summary persisted))
      (reports.map (.ofSnapshot "progress"))
      ⟨.ofSnapshot "summary" summary.snapshot, summary.reportsEmitted, persisted⟩ := by
  refine ⟨reports.map fun s => (progressValue operation s).render, (summaryValue operation summary persisted).render,
    ?_, ?_, ?_, ?_⟩
  · have hjoin := toList_join_line (reports.map (progressValue operation))
    simp only [List.map_map] at hjoin
    rw [String.toList_append, toList_line, Text.unlines, List.flatMap_append]
    exact congrArg₂ (· ++ ·) hjoin (by simp)
  · intro l hl c hc
    rcases List.mem_append.mp hl with hl | hl
    · obtain ⟨s, _, rfl⟩ := List.mem_map.mp hl
      exact printable_render isSound_progressValue hc
    · obtain rfl := List.mem_singleton.mp hl
      exact printable_render isSound_summaryValue hc
  · rw [List.map_map, List.map_map]
    apply List.map_congr_left
    intro s _
    show (Value.parse? (progressValue operation s).render).bind Entry.read? = _
    rw [parse?_render isSound_progressValue, Option.bind_some, Entry.read?_progressValue]
    rfl
  · rw [parse?_render isSound_summaryValue, Option.bind_some, Closing.read?_summaryValue]

end Report
end Cadence
