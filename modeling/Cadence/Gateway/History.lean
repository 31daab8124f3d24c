import Cadence.Gateway.Handler

/-!
# Histories of a gateway

What happens to a gateway one after the other: calls that reach their handlers, and contents that are stored from within.

* `Gateway.contents` is what was stored in a history, in order, whoever stored it.
* `Gateway.misses` counts the calls for a content that nobody had stored before.
-/

namespace Cadence.Gateway

/-- What can happen to a gateway: it is asked, or a content is stored without a call. -/
inductive Event where
  | asked (call : Call)
  | stored (content : List UInt8)
deriving DecidableEq

/-- The gateway after one more event. -/
def follow (g : Gateway) : Event → Gateway
  | .asked call => (g.handle call).2
  | .stored content => g.insert content

/-- What an empty gateway has become after a history of events. -/
def after (history : List Event) : Gateway := history.foldl follow empty

/-- The response to a call that comes after a history. -/
def reply (history : List Event) (call : Call) : Http.Response := ((after history).handle call).1

/-- The content that an event stores. -/
def Event.content? : Event → Option (List UInt8)
  | .stored content => some content
  | .asked (.add (.file _ content)) => some content
  | .asked _ => none

/-- The contents that were stored in a history, in order. -/
def contents (history : List Event) : List (List UInt8) := history.filterMap Event.content?

/-- The identifier that is looked up to answer a call. -/
def Call.wanted? : Call → Option String
  | .add _ => none
  | .cat id => id
  | .findProviders id => id
  | .lookup id => some id

/-- The identifier that is looked up in an event. -/
def Event.wanted? : Event → Option String
  | .asked call => call.wanted?
  | .stored _ => none

/-- Whether the event at a place of a history is a call for a content that was not stored before it. -/
def missesAt (history : List Event) (i : Nat) : Bool :=
  match history[i]?.bind Event.wanted? with
  | some id => (contents (history.take i)).all fun content => contentId content ≠ id
  | none => false

/-- How many calls of a history were for a content that was not stored before. -/
def misses (history : List Event) : Nat := (List.range history.length).countP (missesAt history)

end Cadence.Gateway
