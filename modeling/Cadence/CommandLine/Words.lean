import Cadence.CommandLine.Command

/-!
# Words of a command line

The words are read from left to right. A parameter whose value is still to come is kept open, and is looked at
only when the next known parameter or the end is reached; a word that fits nowhere is told before that.

* `Reading.settle` closes the open parameter: a missing value is told before a repetition, and that before a
  value that is not accepted.
* `command_operation`: the command that is read has the operation that the first word names.
-/

namespace Cadence.CommandLine

/-- What a word looks like. -/
inductive Word where
  | escape
  | long (name : List Char) (value : Option (List Char))
  | short (first : Char)
  | plain
deriving DecidableEq, Repr

/-- Splits what follows two hyphens at the first equals sign. -/
def splitValue (cs : List Char) : List Char × Option (List Char) :=
  match cs.dropWhile (· ≠ '=') with
  | [] => (cs, none)
  | _ :: value => (cs.takeWhile (· ≠ '='), some value)

/-- Two hyphens alone, a long name, a short name, or anything else. -/
def Word.ofChars : List Char → Word
  | ['-', '-'] => .escape
  | '-' :: '-' :: cs => .long (splitValue cs).1 (splitValue cs).2
  | '-' :: c :: _ => .short c
  | _ => .plain

/-- A parameter that was named and whose value is not looked at yet. -/
structure Open where
  param : Param
  value : Option String
deriving DecidableEq

/-- What has been read: the settings in order, and the parameter that is still open. -/
structure Reading where
  settings : List Setting
  pending : Option Open
deriving DecidableEq

namespace Reading

/-- Nothing has been read. -/
def start : Reading := ⟨[], none⟩

/-- Whether a parameter is set already. -/
def has (r : Reading) (p : Param) : Bool := r.settings.any fun s => s.param == p

/-- Sets a parameter, whose value may be missing. -/
def accept (r : Reading) (p : Param) (value : Option String) : Except Refusal Reading :=
  match value with
  | none => .error (.badValue p "" .missing)
  | some text =>
    if r.has p then .error (.repeated p)
    else match Setting.read p text with
      | .ok s => .ok ⟨r.settings ++ [s], none⟩
      | .error f => .error (.badValue p text f)

/-- Closes the open parameter. -/
def settle (r : Reading) : Except Refusal Reading :=
  match r.pending with
  | none => .ok r
  | some o => { r with pending := none }.accept o.param o.value

/-- Reads a long name that may carry a value. -/
def long (r : Reading) (op : Operation) (name : String) (value : Option String) : Except Refusal Reading :=
  match Param.ofName? op name with
  | some p =>
    if p.isSwitch then
      match value with
      | some v => .error (.unneededValue name v)
      | none => r.settle.bind fun r => r.accept p (some "")
    else
      match value with
      | some v => r.settle.bind fun r => r.accept p (some v)
      | none => r.settle.map fun r => { r with pending := some ⟨p, none⟩ }
  | none =>
    if name = "help" then
      match value with
      | some v => .error (.unneededValue name v)
      | none => r.settle.bind fun _ => .error .help
    else .error (.unknownArgument ("--" ++ name))

/-- Reads a word that is no name: the value of the open parameter, if it has none yet. -/
def plain (r : Reading) (word : String) : Except Refusal Reading :=
  match r.pending with
  | some ⟨p, none⟩ => .ok { r with pending := some ⟨p, some word⟩ }
  | _ => .error (.unknownArgument word)

/-- Two switches that exclude each other were set; the one set first is told first. -/
def conflict? (settings : List Setting) : Option Refusal :=
  match settings.filter fun s => s.param == .noShuffle || s.param == .seed with
  | s :: t :: _ => some (.conflict s.param t.param)
  | _ => none

/-- The settings at the end of the words. -/
def finish (r : Reading) : Except Refusal (List Setting) :=
  r.settle.bind fun r =>
    match conflict? r.settings with
    | some refusal => .error refusal
    | none => .ok r.settings

end Reading

/-- Reads the words after the name of an operation. No word may follow two hyphens that stand alone. -/
def settings (op : Operation) : Reading → List String → Except Refusal (List Setting)
  | r, [] => r.finish
  | r, word :: words =>
    match Word.ofChars word.toList with
    | .escape =>
      match words with
      | [] => r.finish
      | w :: _ => .error (.unknownArgument w)
    | .long name value =>
      match r.long op (String.ofList name) (value.map String.ofList) with
      | .ok r => settings op r words
      | .error e => .error e
    | .short c =>
      if c = 'h' then r.settle.bind fun _ => .error .help
      else .error (.unknownArgument (String.ofList ['-', c]))
    | .plain =>
      match r.plain word with
      | .ok r => settings op r words
      | .error e => .error e

/-- The operation of a name. -/
def operation? (name : String) : Option Operation :=
  [Operation.upload, .download, .findProviders, .indexerLookup].find? fun op => op.name == name

/-- Whether a word is the name of a command. -/
def isCommand (word : String) : Bool := (operation? word).isSome || word == "help"

/-- Help on a command. A command is named by at most one word. -/
def helpOn : List String → Refusal
  | [] => .help
  | [w] => if isCommand w then .help else .unknownCommand w
  | w :: v :: _ => if isCommand w then .unknownCommand v else .unknownCommand w

/-- What the words before any command lead to if two hyphens stand alone in front of them. -/
def afterEscape : List String → Refusal
  | [] => .nothingAsked
  | w :: _ => if isCommand w then .unknownArgument w else .unknownCommand w

/-- What a long name in front of any command leads to. -/
def longInFront (name : String) (value : Option String) : Refusal :=
  if name = "help" ∨ name = "version" then
    match value with
    | some v => .unneededValue name v
    | none => if name = "help" then .help else .version
  else .unknownArgument ("--" ++ name)

/-- What a short name in front of any command leads to. -/
def shortInFront (c : Char) : Refusal :=
  if c = 'h' then .help
  else if c = 'V' then .version
  else .unknownArgument (String.ofList ['-', c])

/-- The command of an operation and the words after its name. -/
def operationCommand (api : String) (op : Operation) (words : List String) : Except Refusal Command :=
  (settings op .start words).map fun ss => ss.foldl Command.assign (.default op api)

/-- Reads the words of a command line, without the name of the program. -/
def command (api : String) : List String → Except Refusal Command
  | [] => .error .nothingAsked
  | word :: words =>
    match Word.ofChars word.toList with
    | .escape => .error (afterEscape words)
    | .long name value => .error (longInFront (String.ofList name) (value.map String.ofList))
    | .short c => .error (shortInFront c)
    | .plain =>
      if word = "help" then .error (helpOn words)
      else match operation? word with
        | none => .error (.unknownCommand word)
        | some op => operationCommand api op words

theorem operation_foldl_assign (c : Command) (ss : List Setting) :
    (ss.foldl Command.assign c).operation = c.operation := by
  induction ss generalizing c with
  | nil => rfl
  | cons s ss ih => rw [List.foldl_cons, ih, Command.operation_assign]

theorem operationCommand_operation {api : String} {op : Operation} {words : List String} {c : Command}
    (h : operationCommand api op words = .ok c) : c.operation = op := by
  obtain ⟨ss, _, rfl⟩ := Setting.map_eq_ok h
  rw [operation_foldl_assign, Command.operation_default]

theorem command_operation {api word : String} {words : List String} {c : Command}
    (h : command api (word :: words) = .ok c) : operation? word = some c.operation := by
  simp only [command] at h
  cases hw : Word.ofChars word.toList <;> simp only [hw] at h
  case plain =>
    split at h
    · cases h
    · cases ho : operation? word <;> simp only [ho] at h
      · cases h
      · rw [operationCommand_operation h]
  all_goals cases h

end Cadence.CommandLine
