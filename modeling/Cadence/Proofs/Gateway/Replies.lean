import Cadence.Gateway.Handler
import Cadence.Proofs.Exchange.Reply
import Cadence.Proofs.Gateway.Identifier
import Cadence.Proofs.Report.Line

/-!
# What the responses of a gateway tell

The response to a file that was added tells its identifier to the reader of such replies (`rootHash_addedResponse`),
whatever the name of the file is; the response to a search lists the provider exactly if the content is held
(`listsProvider_iff`).
-/

namespace Cadence

namespace Text

/-- A text that begins and ends with no blank is not trimmed. -/
lemma trim_of_ends {c d : Char} (hc : isBlank c = false) (hd : isBlank d = false) (s : List Char) :
    trim (c :: s ++ [d]) = c :: s ++ [d] := by
  apply trim_eq_self_iff.mpr
  exact ⟨by simpa using hc, by simpa only [List.getLast?_concat, Option.some.injEq, forall_eq'] using hd⟩

end Text

namespace Json
open Text

lemma newline_not_mem_render {v : Value} (h : v.IsSound) : '\n' ∉ v.render :=
  fun hc => absurd (printable_render h hc) (by decide)

/-- The text of an object is one line, which is kept as it is. -/
lemma kept_render_record {fields : List (String × Value)} (h : (Value.record fields).IsSound) :
    kept (Value.record fields).render = [(Value.record fields).render] := by
  have htrim : trim (Value.record fields).render = (Value.record fields).render := trim_of_ends (by decide) (by decide) _
  rw [kept_of_not_mem (newline_not_mem_render h), htrim]
  rfl

end Json

namespace Gateway
open Json (Value)
open Http (Response)

lemma text?_textResponse (status : Nat) (text : String) : (textResponse status text).text? = some text :=
  Text.Utf8.fromUTF8?_toUTF8 text

/-- The response to a file that was added. -/
private def added (name id : String) (size : Nat) : Value :=
  .record [("Name", .text name), ("Hash", .text id), ("Size", .text (toString size))]

private lemma isSound_added (name id : String) (size : Nat) : (added name id size).IsSound := by
  apply Json.isSound_record
  intro f hf
  simp only [List.mem_cons, List.not_mem_nil, or_false] at hf
  rcases hf with rfl | rfl | rfl
  all_goals exact Json.isSound_text _

private lemma lineHash?_added (name id : String) (size : Nat) :
    Reply.lineHash? (added name id size).render = some id := by
  rw [Reply.lineHash?, Json.parse?_render (isSound_added name id size)]
  rfl

/-- The identifier of a content is read from the response to the file that was added. -/
theorem rootHash_addedResponse (name : String) (content : List UInt8) (size : Nat) :
    Reply.rootHash (addedResponse name (contentId content) size).body = .ok (contentId content) := by
  have htext : String.fromUTF8? (addedResponse name (contentId content) size).body
      = some (added name (contentId content) size).compact := text?_textResponse 200 _
  have hlast : Reply.lastHash? (added name (contentId content) size).compact.toList = some (contentId content) := by
    rw [Reply.lastHash?_eq, Value.compact, String.toList_ofList, added,
      Json.kept_render_record (isSound_added name (contentId content) size), List.reverse_singleton,
      List.findSome?_singleton]
    exact lineHash?_added name (contentId content) size
  simp only [Reply.rootHash, htext, hlast]
  exact if_neg (mt String.isEmpty_iff.mp (contentId_ne_empty content))

/-- The values on the lines of a response, those left out that cannot be read. -/
def valuesOf (r : Response) : List Value :=
  match r.text? with
  | some text => (Text.kept text.toList).filterMap Value.parse?
  | none => []

/-- Whether the provider of the gateway is among the peers that a response names. -/
def ListsProvider (r : Response) : Prop :=
  ∃ v ∈ valuesOf r, ∃ peers, v.field? "Responses" = some (.array peers) ∧ provider ∈ peers

private lemma isSound_provider : provider.IsSound := by
  refine ⟨rfl, ⟨?_, trivial⟩, rfl, ?_, trivial⟩
  · exact Json.isSound_text _
  · exact Json.isSound_text _

private lemma isSound_eventValue {responses : Value} (h : responses.IsSound) (kind : Nat) :
    (eventValue responses kind).IsSound := by
  apply Json.isSound_record
  intro f hf
  simp only [List.mem_cons, List.not_mem_nil, or_false] at hf
  rcases hf with rfl | rfl | rfl | rfl
  · exact Json.isSound_text _
  · exact Json.isSound_text _
  · exact h
  · exact Json.isSound_count _

private lemma parse_kept_eventValue (responses : Value) (h : responses.IsSound) (kind : Nat) :
    (Text.kept (eventValue responses kind).render).filterMap Value.parse? = [eventValue responses kind] := by
  rw [eventValue, Json.kept_render_record (isSound_eventValue h kind)]
  exact List.filterMap_cons_some (Json.parse?_render (isSound_eventValue h kind))

/-- A search tells an event of its own, and one more with the provider if the content is held. -/
lemma valuesOf_providersResponse (isHeld : Bool) : valuesOf (providersResponse isHeld)
    = eventValue .null 0 :: if isHeld then [eventValue (.array [provider]) 4] else [] := by
  have hsearch := parse_kept_eventValue .null trivial 0
  have hfound := parse_kept_eventValue (.array [provider]) ⟨isSound_provider, trivial⟩ 4
  have hline : ∀ (l s : List Char), Text.kept (l ++ ['\n'] ++ s) = Text.kept l ++ Text.kept s := by
    intro l s
    rw [List.append_assoc]
    exact Text.kept_append l s
  rw [valuesOf, providersResponse, text?_textResponse]
  show List.filterMap Value.parse? (Text.kept _) = _
  simp only [String.toList_append, Value.compact, String.toList_ofList]
  rw [show "\n".toList = ['\n'] from rfl, hline, List.filterMap_append, hsearch]
  cases isHeld with
  | false => rfl
  | true =>
    have hlast := hline (eventValue (.array [provider]) 4).render []
    rw [List.append_nil] at hlast
    simp only [if_true, String.toList_append, String.toList_ofList]
    rw [show "\n".toList = ['\n'] from rfl, hlast, List.filterMap_append, hfound]
    rfl

lemma responses_eventValue (responses : Value) (kind : Nat) :
    (eventValue responses kind).field? "Responses" = some responses := by
  simp [eventValue]

/-- A search lists the provider exactly if the content is held. -/
theorem listsProvider_iff (isHeld : Bool) : ListsProvider (providersResponse isHeld) ↔ isHeld = true := by
  rw [ListsProvider, valuesOf_providersResponse]
  constructor
  · rintro ⟨v, hv, peers, hpeers, _⟩
    cases isHeld with
    | true => rfl
    | false =>
      obtain rfl := List.mem_singleton.mp hv
      rw [responses_eventValue] at hpeers
      cases hpeers
  · rintro rfl
    refine ⟨eventValue (.array [provider]) 4, List.mem_cons_of_mem _ List.mem_cons_self, [provider], ?_, ?_⟩
    · exact responses_eventValue _ 4
    · exact List.mem_cons_self

end Gateway
end Cadence
