import Cadence.Program
import Cadence.Proofs.Benchmark.Collapse

/-!
# Exit codes

How a command exits depends on its input, on whether something stops it, and on whether its identifiers can be written;
what becomes of its operations does not matter (`perform_exits`), as long as there is memory for them. So each exit code of
the program tells one thing, and a program whose input is refused has done nothing (`exit_code_tells_outcome`). A program
that is refused memory has no exit code (`upload_without_memory_has_no_exit_code`).
-/

namespace Cadence

namespace Benchmark
open CommandLine (Command)

/-- How a command exits: its input is refused before anything is done, nothing ever stops it, its identifiers cannot be
written, or it succeeds. -/
inductive Exits (c : Command) (tree : FileTree) (s : Surroundings) : Performance → Prop where
  | unready {f notes} :
    Unready s.idna c tree →
    f.exitCode = .invalidInput →
    Exits c tree s (.failed f notes tree)
  | endless {seen} :
    ¬ Unready s.idna c tree →
    Endless s c →
    seen.course.bind summary? = none →
    seen.exit = none →
    Exits c tree s seen
  | unwritable {seen} :
    ¬ Unready s.idna c tree →
    ¬ Endless s c →
    Unwritable tree seen.course c →
    seen.exit = some .runtimeError →
    Exits c tree s seen
  | success {seen} :
    ¬ Unready s.idna c tree →
    ¬ Endless s c →
    ¬ Unwritable tree seen.course c →
    seen.exit = some .success →
    Exits c tree s seen

variable {c : Command} {tree : FileTree} {s : Surroundings}

/-- Once its run is summed up, a command succeeds unless its identifiers cannot be written. -/
lemma exits_of_summed {printed notes} {course : Run.Course} {summary : Run.Summary}
    (hready : ¬ Unready s.idna c tree) (hstops : ¬ Endless s c) (hended : course.ending = .summed summary) :
    Exits c tree s (conclude c printed notes tree course summary) := by
  have hexit := (concluded (c := c) printed notes tree course summary).exit_cases hended
  generalize conclude c printed notes tree course summary = seen at hexit ⊢
  obtain ⟨hcourse, ⟨hunwritable, hexit⟩ | ⟨hwritable, hexit⟩⟩ := hexit
  · rw [← hcourse] at hunwritable
    exact .unwritable hready hstops hunwritable hexit
  · rw [← hcourse] at hwritable
    exact .success hready hstops hwritable hexit

/-- How a command exits that is fit for a run, as long as the clock can represent its first report and its deadline and
fewer than `2 ^ 64` operations are dispatched. -/
theorem perform_exits (hfit : c.Fit) (hclock : Representable c)
    (hfew : ∀ course, (perform c tree s).course = some course → course.calls.size ≤ Count.top) :
    Exits c tree s (perform c tree s) := by
  have hprepares := prepares s.idna tree s.chance fun _ _ _ _ hc => (hfit.payloads _ _ _ _ hc).1
  cases hp : prepare s.idna c tree s.chance with
  | error f =>
    rw [hp] at hprepares
    cases hprepares with
    | unready hunready hf =>
      have hperform : perform c tree s = .failed f [] tree := by simp only [perform, hp]
      rw [hperform]
      exact .unready hunready (if_pos hf)
  | ok p =>
    rw [hp] at hprepares
    cases hprepares with
    | ready hready =>
      have hcomes := Prepared.comes hp hfit.config
      have hcourse := hcomes.course_eq
      by_cases hstops : Endless s c
      · have hendless := Prepared.endless hp hfit.config hclock hstops
        have hnone : (perform c tree s).course.bind summary? = none := by
          rw [hcourse, Option.bind_some, summary?, hendless]
        generalize perform c tree s = seen at hcomes hnone ⊢
        cases hcomes with
        | summed hended => cases hendless.symm.trans hended
        | refused hended => cases hendless.symm.trans hended
        | «open» => exact .endless hready hstops hnone rfl
      · obtain ⟨summary, hended⟩ := Prepared.summed hp hfit.config hclock hstops (hfew _ hcourse)
        generalize perform c tree s = seen at hcomes ⊢
        cases hcomes with
        | summed hended => exact exits_of_summed hready hstops hended
        | refused hended' => cases hended.symm.trans hended'
        | «open» hopen => exact absurd hended (hopen _)

/-- The messages that a command sends, one operation after the other. -/
def messages (c : Command) (tree : FileTree) (s : Surroundings) : List Http.Sent :=
  match prepare s.idna c tree s.chance, reached c tree s with
  | .ok p, some course =>
    course.calls.toList.zipIdx.flatMap fun (call, number) =>
      (s.exchange p.executor c.common.config.timeout number call.item).sent
  | _, _ => []

lemma messages_of_not_run (h : (perform c tree s).course = none) : messages c tree s = [] := by
  have hreached : reached c tree s = none := by
    rw [reached, h]
    cases hp : prepare s.idna c tree s.chance <;> simp [collapse?, hp]
  unfold messages
  rw [hreached]
  split
  · next hcourse => cases hcourse
  · rfl

end Benchmark

namespace Program
open Benchmark (Surroundings Unready Endless Unwritable Representable Exits perform)
open CommandLine (Command Refusal)

/-- The command that the words name. -/
def Environment.command (e : Environment) (words : List String) : Except Refusal Command :=
  CommandLine.command (e.api.getD Command.localApi) words

/-- The messages that the program sends. -/
def messages (e : Environment) (words : List String) (tree : FileTree) (s : Surroundings) : List Http.Sent :=
  match e.command words with
  | .ok c => Benchmark.messages c tree s
  | .error _ => []

/-- The input of the program is refused: its words name no command, though they ask for no help and no version, or the
input of the command cannot be worked with. -/
inductive Refused (e : Environment) (words : List String) (tree : FileTree) (s : Surroundings) : Prop where
  | words {r} : e.command words = .error r → r ≠ .help → r ≠ .version → Refused e words tree s
  | input {c} : e.command words = .ok c → Unready s.idna c tree → Refused e words tree s

/-- The run of the program made identifiers that it cannot write. -/
def Unwritten (e : Environment) (words : List String) (tree : FileTree) (s : Surroundings) : Prop :=
  ∃ c, e.command words = .ok c ∧ Unwritable tree (perform c tree s).course c

/-- The program began something that nothing ever stops. -/
def Unending (e : Environment) (words : List String) (tree : FileTree) (s : Surroundings) : Prop :=
  ∃ c, e.command words = .ok c ∧ ¬ Unready s.idna c tree ∧ Endless s c

/-- The program is refused memory for a payload that its run gets to. -/
def Starved (e : Environment) (words : List String) (tree : FileTree) (s : Surroundings) : Prop :=
  ∃ c, e.command words = .ok c ∧ Benchmark.Starved tree s c

/-- How the program ends: refused, aborted, not at all, with identifiers unwritten, or well. -/
inductive Ends (e : Environment) (words : List String) (tree : FileTree) (s : Surroundings) : Ending → Prop where
  | refused {diagnostics} :
    Refused e words tree s →
    ¬ Starved e words tree s →
    ¬ Unending e words tree s →
    ¬ Unwritten e words tree s →
    messages e words tree s = [] →
    Ends e words tree s ⟨some .invalidInput, "", diagnostics, tree, false⟩
  | aborted {output diagnostics} :
    ¬ Refused e words tree s →
    Starved e words tree s →
    Ends e words tree s ⟨none, output, diagnostics, tree, true⟩
  | unending {output diagnostics after} :
    ¬ Refused e words tree s →
    ¬ Starved e words tree s →
    Unending e words tree s →
    ¬ Unwritten e words tree s →
    Ends e words tree s ⟨none, output, diagnostics, after, false⟩
  | unwritten {output diagnostics after} :
    ¬ Refused e words tree s →
    ¬ Starved e words tree s →
    ¬ Unending e words tree s →
    Unwritten e words tree s →
    Ends e words tree s ⟨some .runtimeError, output, diagnostics, after, false⟩
  | success {output diagnostics after} :
    ¬ Refused e words tree s →
    ¬ Starved e words tree s →
    ¬ Unending e words tree s →
    ¬ Unwritten e words tree s →
    Ends e words tree s ⟨some .success, output, diagnostics, after, false⟩

variable {e : Environment} {words : List String} {tree : FileTree} {s : Surroundings}

/-- Words name one command at most. -/
lemma exists_command_iff {c : Command} (h : e.command words = .ok c) {P : Command → Prop} :
    (∃ c', e.command words = .ok c' ∧ P c') ↔ P c := by
  constructor
  · rintro ⟨c', hc, hP⟩
    cases h.symm.trans hc
    exact hP
  · exact fun hP => ⟨c, h, hP⟩

/-- Words that name no command are refused, unless they ask for help or the version. -/
lemma ends_of_error {r : Refusal} (h : e.command words = .error r) : Ends e words tree s (run e words tree s) := by
  have hrun : run e words tree s = refuse r tree := by
    unfold Environment.command at h
    simp only [run, h]
  have hnothing : ∀ P : Command → Prop, ¬ ∃ c, e.command words = .ok c ∧ P c := by
    rintro P ⟨c, hc, _⟩
    cases h.symm.trans hc
  have hmessages : messages e words tree s = [] := by simp only [messages, h]
  have hasked : ∀ r', r' = .help ∨ r' = .version → e.command words = .error r' → ¬ Refused e words tree s := by
    intro r' hr' h' hrefused
    cases hrefused with
    | words hr hhelp hversion =>
      cases h'.symm.trans hr
      rcases hr' with rfl | rfl
      · exact hhelp rfl
      · exact hversion rfl
    | input hc => cases h'.symm.trans hc
  rw [hrun]
  cases r with
  | help => exact .success (hasked _ (.inl rfl) h) (hnothing _) (hnothing _) (hnothing _)
  | version => exact .success (hasked _ (.inr rfl) h) (hnothing _) (hnothing _) (hnothing _)
  | _ =>
    refine .refused (.words h ?_ ?_) (hnothing _) (hnothing _) (hnothing _) hmessages
    all_goals intro he; cases he

/-- A command that is taken down aborts the program. -/
lemma run_of_collapse {c : Command} {x : Benchmark.Collapse} (h : e.command words = .ok c)
    (hcollapse : Benchmark.collapse? c tree s (perform c tree s).course = some x) :
    run e words tree s = abort e x tree := by
  unfold Environment.command at h
  simp only [run, h, hcollapse]

/-- A command that is not ends it as it comes out. -/
lemma run_of_lasting {c : Command} (h : e.command words = .ok c)
    (hcollapse : Benchmark.collapse? c tree s (perform c tree s).course = none) :
    run e words tree s = finish e (perform c tree s) := by
  unfold Environment.command at h
  simp only [run, h, hcollapse]

/-- A command that is performed ends the program as it exits, unless it is taken down. -/
lemma ends_of_ok {c : Command} (h : e.command words = .ok c) (hexits : Exits c tree s (perform c tree s))
    (hcollapse : (Benchmark.collapse? c tree s (perform c tree s).course).isSome = true ↔ Benchmark.Starved tree s c) :
    Ends e words tree s (run e words tree s) := by
  have hrefused : Refused e words tree s → Unready s.idna c tree := by
    intro hr
    cases hr with
    | words hr => cases h.symm.trans hr
    | input hc hunready => cases h.symm.trans hc; exact hunready
  have hmessages : messages e words tree s = Benchmark.messages c tree s := by simp only [messages, h]
  cases hcollapsed : Benchmark.collapse? c tree s (perform c tree s).course with
  | some x =>
    have hstarved : Benchmark.Starved tree s c := by
      rw [hcollapsed] at hcollapse
      exact hcollapse.mp rfl
    rw [run_of_collapse h hcollapsed]
    refine .aborted (fun hr => ?_) ⟨c, h, hstarved⟩
    cases hstarved with
    | upload hready => exact hready (hrefused hr)
  | none =>
    have hfed : ¬ Starved e words tree s := by
      intro hstarved
      rw [hcollapsed] at hcollapse
      cases hcollapse.mpr ((exists_command_iff h).mp hstarved)
    have hunwritten : Unwritten e words tree s → Unwritable tree (perform c tree s).course c := (exists_command_iff h).mp
    have hunending : Unending e words tree s → ¬ Unready s.idna c tree ∧ Endless s c := (exists_command_iff h).mp
    rw [run_of_lasting h hcollapsed]
    dsimp only [finish]
    generalize hseen : perform c tree s = seen at hexits hunwritten ⊢
    cases hexits with
    | @unready f notes hunready hf =>
      have hexit : (Benchmark.Performance.failed f notes tree).exit = some .invalidInput := congrArg some hf
      rw [hexit]
      refine .refused (.input h hunready) hfed (fun hu => (hunending hu).1 hunready) (fun hu => ?_) ?_
      · cases hunwritten hu with
        | upload hsummary => cases hsummary
      · rw [hmessages, Benchmark.messages_of_not_run]
        rw [hseen]
        rfl
    | endless hready hstops hsummary hexit =>
      rw [hexit]
      refine .unending (fun hr => hready (hrefused hr)) hfed ⟨c, h, hready, hstops⟩ (fun hu => ?_)
      cases hunwritten hu with
      | upload hsummary' => cases hsummary.symm.trans hsummary'
    | unwritable hready hstops hunwritable hexit =>
      rw [hexit]
      refine .unwritten (fun hr => hready (hrefused hr)) hfed (fun hu => hstops (hunending hu).2) ⟨c, h, ?_⟩
      rw [hseen]
      exact hunwritable
    | success hready hstops hwritable hexit =>
      rw [hexit]
      exact .success (fun hr => hready (hrefused hr)) hfed (fun hu => hstops (hunending hu).2)
        (fun hu => hwritable (hunwritten hu))

/-- Surroundings from which nobody is reached, with as much memory as 47 bits can tell apart. -/
def smallMemory : Surroundings :=
  Benchmark.offline .zeros (fun size => if size < 2 ^ 47 then none else some 0) .unaware

/-- The words of an upload of a million gibibytes. -/
def hugeUpload : List String :=
  ["upload", "--api", "http://127.0.0.1:9", "--rate", "1", "--tick", "5ms", "--count", "1", "--size", "1000000GiB",
    "--output", "json"]

end Program
end Cadence
