import Cadence.Exchange.Executor
import Cadence.Run.Simulation
import Cadence.Workload.Random

/-!
# The surroundings of a benchmark

What the program cannot know in advance: what is left to chance, which memory it is given, what the network makes of each
message, and when the user interrupts; and the rules for international names, which it takes as they are.

* `Surroundings.exchange` is all that one operation does, and depends on its number and its item alone.
* `Surroundings.allocation` says what comes of asking for the memory of a payload. More than there can ever be breaks the
  operation down; what is refused takes down the process with all its operations.
* `Surroundings.exchange_misfit`: an item of the wrong kind sends nothing and fails at once.
-/

namespace Cadence.Benchmark

open Http (Fate Response SendError Sent)

/-- What is left to chance: the order of a list without a given order, and what the uploads send, by the number and
the size of the payload. -/
structure Chance where
  seed : UInt64
  upload : Nat → (size : Nat) → {payload : Upload // payload.contents.length = size}

/-- The bytes of a word, the lowest first. -/
def wordBytes (w : UInt64) : List UInt8 := (List.range 8).map fun i => (w >>> (8 * UInt64.ofNat i)).toUInt8

/-- The bytes of a number of random words. -/
def randomWords (r : Workload.Random) : Nat → List UInt8
  | 0 => []
  | count + 1 => wordBytes r.word ++ randomWords r.advance count

/-- A number of random bytes. -/
def randomBytes (r : Workload.Random) (size : Nat) : List UInt8 := (randomWords r (size / 8 + 1)).take size

theorem randomWords_length (r : Workload.Random) (count : Nat) : (randomWords r count).length = 8 * count := by
  induction count generalizing r with
  | zero => rfl
  | succ n ih =>
    simp only [randomWords, List.length_append, ih, wordBytes, List.length_map, List.length_range]
    omega

theorem randomBytes_length (r : Workload.Random) (size : Nat) : (randomBytes r size).length = size := by
  simp only [randomBytes, List.length_take, randomWords_length]
  omega

/-- Chance as it follows from one seed: each payload has a generator of its own. -/
def Chance.ofSeed (seed : UInt64) : Chance where
  seed := seed
  upload number size :=
    let r := Workload.Random.ofSeed (seed + UInt64.ofNat number)
    ⟨⟨r.word, randomBytes r.advance size⟩, randomBytes_length r.advance size⟩

/-- Chance that has no say: nothing but zeros. -/
def Chance.zeros : Chance where
  seed := 0
  upload _ size := ⟨⟨0, List.replicate size 0⟩, List.length_replicate⟩

/-- Chance, the network, the instant of an interrupt if there is one, the memory, and the rules for international names. The
network sees the number of the operation and the message; of payloads of a size, the memory tells the number of the first one
for which there is none left, if it comes to that. -/
structure Surroundings where
  chance : Chance
  network : Nat → Sent → Fate
  interrupt : Option Nat
  memory : Nat → Option Nat
  idna : Url.Idna

/-- What comes of asking for memory: it is given, it is more than there can ever be, or so many bytes are refused. -/
inductive Allocation where
  | given
  | impossible
  | refused (bytes : Nat)
deriving DecidableEq

/-- What one operation does: its behaviour, the notes that it leaves if it is not cut off, and the messages that it
sends. -/
structure Exchange where
  behaviour : Run.Behaviour
  notes : List Log.Record
  sent : List Sent

/-- An operation that ends with an outcome after some time. -/
def Exchange.ending (after : Duration) (judged : Outcome × List Log.Record) (sent : List Sent) : Exchange :=
  ⟨.finishes after judged.1, judged.2, sent⟩

/-- The largest number of bytes that can stand in one place. -/
def largestBlock : Nat := 9223372036854775807

namespace Surroundings

/-- What an upload of an item sends. -/
def upload (s : Surroundings) : Item → Upload
  | .payload number size => (s.chance.upload number size).val
  | .key _ => ⟨0, []⟩

/-- What comes of asking for the memory that an operation needs for an item: uploads need some for their payload. -/
def allocation (s : Surroundings) (e : Executor) (item : Item) : Allocation :=
  match e, item with
  | .upload _, .payload number size =>
    if largestBlock < size then .impossible
    else if (s.memory size).any fun first => first ≤ number then .refused size
    else .given
  | _, _ => .given

/-- What the operation of a number does with an item. One that is refused memory is never heard of again. -/
def exchange (s : Surroundings) (e : Executor) (timeout : Duration) (number : Nat) (item : Item) : Exchange :=
  match s.allocation e item with
  | .impossible => ⟨.breaks Duration.zero, [], []⟩
  | .refused _ => ⟨.hangs, [], []⟩
  | .given =>
    match e.request? (s.upload item) timeout item with
    | none => .ending Duration.zero (Outcome.failure Duration.zero, [e.misfit item]) []
    | some r =>
      match Http.Client.request s.idna (s.network number) r with
      | .replies after reply => .ending after (e.judge item after reply) (Http.Client.messages s.idna r)
      | .silent => ⟨.hangs, [], Http.Client.messages s.idna r⟩

/-- The surroundings of a run whose operations are exchanges. -/
def environment (s : Surroundings) (e : Executor) (timeout : Duration) : Run.Environment where
  interrupt := s.interrupt
  behaviour number item := (s.exchange e timeout number item).behaviour

theorem allocation_of_key (s : Surroundings) (e : Executor) (key : String) : s.allocation e (.key key) = .given := by
  cases e <;> rfl

theorem exchange_misfit {s : Surroundings} {e : Executor} {timeout : Duration} {item : Item}
    (h : e.request? (s.upload item) timeout item = none) (number : Nat) :
    s.exchange e timeout number item
      = .ending Duration.zero (Outcome.failure Duration.zero, [e.misfit item]) [] := by
  have hgiven : s.allocation e item = .given := by
    cases e <;> cases item
    case upload.payload => cases h
    all_goals rfl
  simp [exchange, hgiven, h]

end Surroundings

/-- Surroundings from which nobody is reached: every message fails at once because nobody listens. -/
def offline (chance : Chance) (memory : Nat → Option Nat) (idna : Url.Idna) : Surroundings where
  chance := chance
  network _ := Http.Client.offline
  interrupt := none
  memory := memory
  idna := idna

end Cadence.Benchmark
