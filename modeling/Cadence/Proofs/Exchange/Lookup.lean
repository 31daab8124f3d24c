import Cadence.Exchange.Executor
import Cadence.Proofs.Exchange.Endpoint
import Cadence.Proofs.Identifiers
import Cadence.Proofs.Url.Segment

/-!
# Addresses of lookups

A lookup asks for an identifier by one more segment below the list of its base (`address_of_lookup`). That segment tells the
identifier exactly if a path takes it as it is; of the other identifiers, two have one address exactly if they are the same
step from there (`identifier_is_told_if_plain`).
-/

namespace Cadence

open Text (Utf8.decode?)
open Url (Path.text Percent.decode)
open Url.Path (Plain Settled Step)
open Identifiers (StandsAlone)

namespace Url

/-- URLs that differ in nothing but their path have different texts if their paths do. -/
lemma path_text_eq_of_text_eq {u : Url} {p q : List (List Char)} (h : { u with path := p }.text = { u with path := q }.text) :
    Path.text p = Path.text q := by
  simpa [text, resource, authority] using h

end Url

namespace Executor

open CommandLine.Setting (map_eq_ok)

/-- The segment below which a base lists what it knows of identifiers. -/
def listing : List Char := "cid".toList

lemma listing_ne_nil : listing ≠ [] := by decide

lemma settled_listing : Settled listing := by decide

variable {idna : Url.Idna} {base : String} {most : Nat} {e : Executor} {front : List (List Char)} {key : String}

lemma push_listing (hkey : StandsAlone key) :
    Url.Path.push (front ++ [listing]) key.toList = (Step.ofText key.toList).target (front ++ [listing]) := by
  apply Url.Path.push_eq
  · intro h
    have hlast := congrArg List.getLast? h
    rw [List.getLast?_concat] at hlast
    exact absurd hlast (by decide)
  · intro t ht
    rw [List.getLast?_concat] at ht
    cases ht
    decide
  · exact hkey.bare

/-- The address of a lookup is that of its base, but for its path: that is the one of the base without the empty segments at
its end, then the list, and from there the step that the identifier stands for. -/
lemma address_of_lookup (h : create idna .indexerLookup base most = .ok e) :
    ∃ b front, Url.parse idna base = .ok (.web b) ∧ front <+: b.path ∧
      Path.text front = Endpoint.trimEnd (Path.text b.path) ∧ (∃ u, e = indexerLookup u) ∧
      ∀ key, StandsAlone key →
        e.address key = { b with path := (Step.ofText key.toList).target (front ++ [listing]) } := by
  obtain ⟨u, hu, rfl⟩ := map_eq_ok h
  obtain ⟨b, hb, hscheme, huser, hhost, hport, hquery, hfragment⟩ := Endpoint.of_ok hu
  have hsettled : ∀ s ∈ [listing], Settled s := List.forall_mem_singleton.mpr settled_listing
  obtain ⟨front, hfront, htext, hpath⟩ := Endpoint.of_path hu hb rfl listing_ne_nil hsettled
  refine ⟨b, front, hb, hfront, htext, ⟨u, rfl⟩, fun key hkey => ?_⟩
  rw [← push_listing hkey, ← hpath]
  show u.push key = _
  unfold Url.push
  rw [hscheme, huser, hhost, hport, hquery, hfragment]

/-- The segment that an identifier makes tells it exactly if a path takes the identifier as it is. -/
lemma told_iff {path : List (List Char)} (hpath : path = (Step.ofText key.toList).target (front ++ [listing])) :
    (∃ s, path = front ++ [listing, s] ∧ Utf8.decode? (Percent.decode s) = some key) ↔ Plain key.toList := by
  rw [← Step.ofText_eq_into_iff, hpath]
  constructor
  · rintro ⟨s, hs, hdecode⟩
    cases hstep : Step.ofText key.toList with
    | into t =>
      rw [hstep, Step.target, List.append_assoc] at hs
      obtain rfl : Url.Percent.segment t = s := by simpa using hs
      rw [Url.Percent.decode_segment, ← String.toList_ofList (l := t), Text.Utf8.decode?_encode] at hdecode
      rw [← Option.some.inj hdecode, String.toList_ofList]
    | stay =>
      rw [hstep, Step.target] at hs
      simp at hs
    | up =>
      rw [hstep, Step.target] at hs
      simp at hs
  · intro hstep
    refine ⟨Url.Percent.segment key.toList, ?_, ?_⟩
    · rw [hstep, Step.target, List.append_assoc, List.singleton_append]
    · rw [Url.Percent.decode_segment, Text.Utf8.decode?_encode]

/-- Two identifiers have one address exactly if they are the same step from the list. -/
lemma addressText_eq_iff {b : Url} (hfront : ∀ t ∈ front, Settled t) {key other : String}
    (hkey : StandsAlone key) (hother : StandsAlone other)
    (haddress : e.address key = { b with path := (Step.ofText key.toList).target (front ++ [listing]) })
    (haddressOther : e.address other = { b with path := (Step.ofText other.toList).target (front ++ [listing]) }) :
    e.addressText key = e.addressText other ↔ Step.ofText key.toList = Step.ofText other.toList := by
  have hsettled : ∀ t ∈ front ++ [listing], Settled t := by
    intro t ht
    rcases List.mem_append.mp ht with ht | ht
    · exact hfront t ht
    · rw [List.mem_singleton.mp ht]
      exact settled_listing
  constructor
  · intro htext
    have hpaths := String.ofList_inj.mp htext
    rw [haddress, haddressOther] at hpaths
    have hinjective : Function.Injective (Step.target (front ++ [listing])) := Step.target_injective listing_ne_nil
    apply hinjective
    apply Url.Path.eq_of_text_eq
    · exact Step.settled_target hsettled hkey.bare
    · exact Step.settled_target hsettled hother.bare
    · exact Step.target_ne_nil (by simp) _
    · exact Step.target_ne_nil (by simp) _
    · exact Url.path_text_eq_of_text_eq hpaths
  · intro hstep
    rw [addressText, addressText, haddress, haddressOther, hstep]

/-- The address of a lookup is that of its base, but for its path. This is the path of the base without the empty segments at
its end, then the list, and from there the step that the identifier stands for. So there is exactly one further segment, which
is decoded as the identifier, if and only if a path takes the identifier as it is; and no two such identifiers have one
address. Of any two identifiers the addresses are the same exactly if they stand for the same step. -/
theorem identifier_is_told_if_plain {idna : Url.Idna} {base : String} {most : Nat} {e : Executor}
    (h : create idna .indexerLookup base most = .ok e) :
    ∃ b front, Url.parse idna base = .ok (.web b) ∧ front <+: b.path ∧
      Path.text front = Endpoint.trimEnd (Path.text b.path) ∧
      (∀ payload timeout key, ∃ r, e.request? payload timeout (.key key) = some r ∧ r.url = e.addressText key) ∧
      (∀ key, StandsAlone key →
        e.address key = { b with path := (Step.ofText key.toList).target (front ++ [listing]) }) ∧
      (∀ key, StandsAlone key →
        ((∃ s, (e.address key).path = front ++ [listing, s] ∧ Utf8.decode? (Percent.decode s) = some key) ↔ Plain key.toList)) ∧
      (∀ key other, StandsAlone key → StandsAlone other →
        (e.addressText key = e.addressText other ↔ Step.ofText key.toList = Step.ofText other.toList)) ∧
      ∀ key other, StandsAlone key → StandsAlone other → Plain key.toList → Plain other.toList →
        e.addressText key = e.addressText other → key = other := by
  obtain ⟨b, front, hb, hfront, htext, ⟨u, rfl⟩, haddress⟩ := address_of_lookup h
  have hsettled : ∀ t ∈ front, Settled t := fun t ht => Url.settled_of_parse hb t (hfront.subset ht)
  have hsame : ∀ key other, StandsAlone key → StandsAlone other →
      ((indexerLookup u).addressText key = (indexerLookup u).addressText other ↔
        Step.ofText key.toList = Step.ofText other.toList) :=
    fun key other hkey hother => addressText_eq_iff hsettled hkey hother (haddress key hkey) (haddress other hother)
  refine ⟨b, front, hb, hfront, htext, fun payload timeout key => ⟨_, rfl, rfl⟩, haddress, ?_, hsame, ?_⟩
  · intro key hkey
    apply told_iff
    rw [haddress key hkey]
  · intro key other hkey hother hplain hplainOther hurl
    have hstep := (hsame key other hkey hother).mp hurl
    rw [Step.ofText_eq_into_iff.mpr hplain, Step.ofText_eq_into_iff.mpr hplainOther] at hstep
    exact String.toList_inj.mp (Step.into.inj hstep)

/-- An identifier with a slash and a percent sign is told. One with a tab is not: it is looked up as if it had none. -/
theorem identifier_with_tab_is_not_told :
    StandsAlone "a/b%" ∧ StandsAlone "a\tb" ∧ StandsAlone "ab" ∧
      ∃ e, create .unaware .indexerLookup "http://h/a//" 0 = .ok e ∧ ∃ front : List (List Char),
        (∃ s, (e.address "a/b%").path = front ++ [listing, s] ∧ Utf8.decode? (Percent.decode s) = some "a/b%") ∧
        (¬ ∃ s, (e.address "a\tb").path = front ++ [listing, s] ∧ Utf8.decode? (Percent.decode s) = some "a\tb") ∧
        e.addressText "a\tb" = e.addressText "ab" := by
  have hslash : StandsAlone "a/b%" := Identifiers.isLine_iff_standsAlone.mp (by decide +kernel)
  have htab : StandsAlone "a\tb" := Identifiers.isLine_iff_standsAlone.mp (by decide +kernel)
  have hbare : StandsAlone "ab" := Identifiers.isLine_iff_standsAlone.mp (by decide +kernel)
  refine ⟨hslash, htab, hbare, ?_⟩
  have hok : (create .unaware .indexerLookup "http://h/a//" 0).isOk = true := by decide +kernel
  cases h : create .unaware .indexerLookup "http://h/a//" 0 with
  | error => rw [h] at hok; cases hok
  | ok e =>
    obtain ⟨b, front, _, _, _, _, _, htold, hsame, _⟩ := identifier_is_told_if_plain h
    refine ⟨e, rfl, front, (htold _ hslash).mpr ?_, mt (htold _ htab).mp ?_, (hsame _ _ htab hbare).mpr ?_⟩
    · exact Step.ofText_eq_into_iff.mp (by decide +kernel)
    · exact mt Step.ofText_eq_into_iff.mpr (by decide +kernel)
    · decide +kernel

example : (create .unaware .indexerLookup "http://h/a//?x=1" 0).toOption.map (fun e => ["a/b%", "..", "a\tb", ".\t."].map e.addressText)
    = some ["http://h/a/cid/a%2Fb%25?x=1", "http://h/a/cid?x=1", "http://h/a/cid/ab?x=1", "http://h/a/?x=1"] := by
  decide +kernel

end Executor
end Cadence
