import Cadence.CommandLine.Number
import Cadence.Log
import Cadence.Url.Form

/-!
# Which records are told

A filter is a list of directives between commas. A directive is a level, a topic, or a topic and a level between
which an equals sign stands; it tells the least important level that is still told. The records of this program are
all on one topic, and a directive speaks of it if its topic begins the name of the program's topic.

* `Filter.ofSetting`: without a setting, and with one that cannot be read, warnings and errors are told; with an
  empty one, only errors.
* `Filter.allows_of_rank_le`: with a record, all more important ones are told.
-/

namespace Cadence.Log

/-- The least important level that a directive lets through, if any. -/
abbrev Limit := Option Level

/-- The limit of a number; zero lets nothing through. -/
def limitOfNumber? : Nat → Option Limit
  | 0 => some none
  | 1 => some (some .error)
  | 2 => some (some .warn)
  | 3 => some (some .info)
  | 4 => some (some .debug)
  | 5 => some (some .trace)
  | _ => none

/-- The limit of a name in small letters. -/
def limitOfName? : String → Option Limit
  | "off" => some none
  | "error" => some (some .error)
  | "warn" => some (some .warn)
  | "info" => some (some .info)
  | "debug" => some (some .debug)
  | "trace" => some (some .trace)
  | _ => none

/-- Reads a limit by its number or by its name in letters of either case. -/
def limit? (s : List Char) : Option Limit :=
  match CommandLine.Number.unsigned s with
  | .ok n => limitOfNumber? n
  | .error _ => limitOfName? (String.ofList (s.map Char.toLower))

/-- A topic and what is told of it. The empty topic is all topics. -/
structure Directive where
  topic : List Char
  limit : Limit
deriving DecidableEq

/-- The topic of the records of this program. -/
def ownTopic : List Char := "cidbench".toList

/-- Whether a directive speaks of the records of this program. -/
def Directive.applies (d : Directive) : Bool := d.topic.isPrefixOf ownTopic

/-- Whether a directive may begin with a character. -/
def begins (c : Char) : Bool := c.isAlphanum || c = '-' || c = ':' || c = '_' || 127 < c.toNat

/-- Reads a directive that is not empty. -/
def Directive.read? (s : List Char) : Option Directive :=
  if (s.head?.any begins) then
    match s.dropWhile (· ≠ '=') with
    | [] =>
      match limit? s with
      | some limit => some ⟨[], limit⟩
      | none => some ⟨s, some .trace⟩
    | _ :: level =>
      let named := s.takeWhile (· ≠ '=')
      if level.isEmpty then some ⟨named, some .trace⟩ else (limit? level).map (⟨named, ·⟩)
  else none

/-- What is told: the directives of a setting. -/
structure Filter where
  directives : List Directive

namespace Filter

/-- Reads the directives of a setting; empty ones are left out. -/
def read? (setting : String) : Option Filter :=
  (((Url.Form.splitAt ',' setting.toList).filter fun s => !s.isEmpty).mapM Directive.read?).map (⟨·⟩)

/-- The filter of one level for all topics. -/
def upTo (l : Level) : Filter := ⟨[⟨[], some l⟩]⟩

/-- The filter of a setting, which may be missing. -/
def ofSetting (setting : Option String) : Filter :=
  match setting.bind read? with
  | none => upTo .warn
  | some ⟨[]⟩ => upTo .error
  | some f => f

/-- The directive of the longest topic, the last one of several. -/
def closest : List Directive → Option Directive
  | [] => none
  | d :: r =>
    match closest r with
    | none => some d
    | some e => if e.topic.length < d.topic.length then some d else some e

/-- The limit for the records of this program; there is none where no directive speaks of them. -/
def limit (f : Filter) : Limit := (closest (f.directives.filter Directive.applies)).bind Directive.limit

/-- Whether a record of a level is told. -/
def allows (f : Filter) (l : Level) : Bool := f.limit.any fun m => l.rank ≤ m.rank

/-- The records that are told. -/
def keep (f : Filter) (rs : List Record) : List Record := rs.filter fun r => f.allows r.level

theorem allows_of_rank_le {f : Filter} {l m : Level} (h : f.allows m = true) (hr : l.rank ≤ m.rank) :
    f.allows l = true := by
  unfold allows at *
  cases hl : f.limit with
  | none => simp [hl] at h
  | some k =>
    simp only [hl, Option.any_some, decide_eq_true_eq] at *
    omega

end Filter
end Cadence.Log
