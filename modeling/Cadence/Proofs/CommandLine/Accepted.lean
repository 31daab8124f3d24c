import Cadence.Proofs.ByteSize
import Cadence.Proofs.CommandLine.Options
import Cadence.Proofs.Duration.Notation
import Mathlib.Tactic.FinCases

/-!
# Accepted command lines

Every value that is read is one that a run can do with: rates are in their range, durations and sizes are positive
(`Setting.read_fit`). So an accepted command has valid pacing, and an upload payloads of some size (`command_fit`). Its
pacing is what the options read as, or the defaults where there is no option (`command_pacing`).
-/

namespace Cadence.CommandLine

namespace Setting

lemma mapError_eq_ok {α ε δ : Type} {f : ε → δ} {x : Except ε α} {a : α} (h : x.mapError f = .ok a) : x = .ok a := by
  cases x <;> cases h
  rfl

/-- What a value has to be for a run to do with it. -/
def Fit : Setting → Prop
  | rate n => 0 < n ∧ n ≤ Fault.maxRate
  | tick d | reportInterval d | timeout d | duration d => 0 < d.nanos
  | size n => 0 < n ∧ n ≤ Count.top
  | count n => n ≤ Count.top
  | _ => True

/-- A value that is read is fit for a run. -/
theorem read_fit {p : Param} {text : String} {s : Setting} (h : read p text = .ok s) : s.Fit := by
  cases p with
  | api | indexer | noShuffle =>
    cases h
    trivial
  | rate =>
    obtain ⟨n, _, rfl⟩ := map_eq_ok h
    exact read_rate_le h
  | tick | reportInterval | timeout | duration =>
    obtain ⟨d, hd, rfl⟩ := map_eq_ok h
    exact Duration.parse_pos (mapError_eq_ok hd)
  | size =>
    obtain ⟨n, hn, rfl⟩ := map_eq_ok h
    exact ByteSize.parse_range (mapError_eq_ok hn)
  | count =>
    obtain ⟨n, hn, rfl⟩ := map_eq_ok h
    exact Number.unsigned_ok_le (mapError_eq_ok hn)
  | output | cids | seed | cidsOut | numProviders =>
    obtain ⟨_, _, rfl⟩ := map_eq_ok h
    trivial

end Setting

/-- What a command has to be for a run to do with it: valid pacing, and for an upload payloads of some size. -/
structure Command.Fit (c : Command) : Prop where
  config : c.common.config.Valid
  payloads : ∀ common size count path, c = .upload common size count path →
    0 < size ∧ size ≤ Count.top ∧ count ≤ Count.top

/-- Setting a parameter to a fit value keeps valid pacing valid. -/
lemma Common.valid_assign {c : Common} {s : Setting} (h : c.config.Valid) (hs : s.Fit) : (c.assign s).config.Valid := by
  cases s with
  | rate n => exact { h with rate_pos := hs.1, rate_le := hs.2 }
  | tick d => exact { h with tick_pos := hs }
  | reportInterval d => exact { h with report_pos := hs }
  | timeout d => exact { h with timeout_pos := hs }
  | duration d =>
    refine { h with max_pos := fun e he => ?_ }
    obtain rfl := Option.some.inj he
    exact hs
  | _ => exact { h with }

lemma Command.Fit.default (op : Operation) (api : String) : (Command.default op api).Fit where
  config := by cases op <;> exact Config.default_valid
  payloads := by
    intro common size count path h
    cases op <;> cases h
    decide

lemma Command.common_assign (c : Command) (s : Setting) : (c.assign s).common = c.common.assign s := by
  cases c <;> cases s <;> rfl

lemma Command.Fit.assign {c : Command} {s : Setting} (h : c.Fit) (hs : s.Fit) : (c.assign s).Fit where
  config := by
    rw [common_assign]
    exact Common.valid_assign h.config hs
  payloads := by
    intro common size count path he
    cases c with
    | upload before bytes uploads file =>
      obtain ⟨hpos, htop, hcount⟩ := h.payloads _ _ _ _ rfl
      cases s with
      | size n => cases he; exact ⟨hs.1, hs.2, hcount⟩
      | count n => cases he; exact ⟨hpos, htop, hs⟩
      | _ => cases he; exact ⟨hpos, htop, hcount⟩
    | _ => cases s <;> cases he

lemma Command.Fit.foldl {c : Command} {ss : List Setting} (h : c.Fit) (hss : ∀ s ∈ ss, s.Fit) :
    (ss.foldl Command.assign c).Fit := by
  induction ss generalizing c with
  | nil => exact h
  | cons s ss ih =>
    exact ih (h.assign (hss s List.mem_cons_self)) fun t ht => hss t (List.mem_cons_of_mem _ ht)

/-- An accepted command is fit for a run. -/
theorem command_fit {api : String} {words : List String} {c : Command} (h : command api words = .ok c) : c.Fit := by
  obtain ⟨ss, htakes, hc⟩ := command_inv h
  rw [hc]
  refine (Command.Fit.default _ api).foldl fun s hs => ?_
  rcases htakes.mem_read hs with hs | ⟨text, hread⟩
  · cases hs
  · exact Setting.read_fit hread

/-- The parameters of the pacing. -/
def Param.pacing : List Param := [rate, tick, reportInterval, timeout, duration]

/-- The text of a parameter of the pacing where no option gives it; none means that there is no such limit. -/
def Param.defaultText? : Param → Option String
  | rate => some "1"
  | tick => some "1s"
  | reportInterval => some "1s"
  | timeout => some "10s"
  | _ => none

/-- What the pacing is set to, parameter by parameter. -/
def pacing? (c : Config) : Param → Option Setting
  | .rate => some (.rate c.rate)
  | .tick => some (.tick c.tick)
  | .reportInterval => some (.reportInterval c.reportInterval)
  | .timeout => some (.timeout c.timeout)
  | .duration => c.maxDuration.map .duration
  | _ => none

lemma pacing?_assign (c : Common) (s : Setting) {p : Param} (hp : p ∈ Param.pacing) :
    pacing? (c.assign s).config p = if s.param == p then some s else pacing? c.config p := by
  fin_cases hp <;> cases s <;> rfl

lemma pacing?_foldl {c : Command} {ss : List Setting} (h : (ss.map Setting.param).Nodup) {p : Param}
    (hp : p ∈ Param.pacing) :
    pacing? (ss.foldl Command.assign c).common.config p
      = (ss.find? (·.param == p)).or (pacing? c.common.config p) := by
  induction ss generalizing c with
  | nil => rfl
  | cons s ss ih =>
    obtain ⟨hnew, hss⟩ := List.nodup_cons.mp h
    rw [List.foldl_cons, ih hss, Command.common_assign, pacing?_assign _ _ hp, List.find?_cons]
    cases hs : s.param == p with
    | true =>
      -- no later setting is of the same parameter
      have hnone : ss.find? (·.param == p) = none := by
        refine List.find?_eq_none.mpr fun t ht htp => hnew (List.mem_map.mpr ⟨t, ht, ?_⟩)
        exact (beq_iff_eq.mp htp).trans (beq_iff_eq.mp hs).symm
      rw [hnone]
      rfl
    | false => rfl

/-- The default pacing is what the default texts read as. -/
lemma pacing?_default (op : Operation) (api : String) {p : Param} (hp : p ∈ Param.pacing) :
    pacing? (Command.default op api).common.config p
      = p.defaultText?.bind fun text => (Setting.read p text).toOption := by
  have hdefault : (Command.default op api).common.config = Config.default := by cases op <;> rfl
  rw [hdefault]
  fin_cases hp <;> decide +kernel

/-- The pacing of an accepted command is what its options read as, or the default texts where there is no option. -/
theorem command_pacing {api : String} {words : List String} {c : Command} (h : command api words = .ok c) {p : Param}
    (hp : p ∈ Param.pacing) :
    pacing? c.common.config p = (((options c.operation words.tail).lookup p).or p.defaultText?).bind
      fun text => (Setting.read p text).toOption := by
  obtain ⟨ss, htakes, hc⟩ := command_inv h
  have hfind := htakes.find?_eq p
  rw [List.find?_nil, Option.none_or] at hfind
  rw [hc, pacing?_foldl (htakes.nodup List.nodup_nil) hp, hfind, pacing?_default _ _ hp, ← hc]
  cases htext : (options c.operation words.tail).lookup p with
  | none => rfl
  | some text =>
    obtain ⟨s, hs⟩ := htakes.lookup_read htext
    simp only [Option.bind_some, Option.some_or, hs, Except.toOption]

end Cadence.CommandLine
