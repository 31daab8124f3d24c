import Cadence.CommandLine.Setting
import Cadence.Exchange.Endpoint
import Cadence.Proofs.Url.Path
import Mathlib.Data.List.Induction

/-!
# Paths of endpoints

An endpoint has the segments of its base without the empty ones at their end, and then those of its own path
(`of_path`): reading the joined path changes nothing, as the segments of the base are settled.
-/

namespace Cadence

namespace Url

open CommandLine.Setting (map_eq_ok)
open Url.Path (Settled)

variable {idna : Idna}

lemma path_of_parseWeb {scheme : Scheme} {port : Nat} {rest : List Char} {u : Url}
    (h : parseWeb idna scheme port rest = .ok u) :
    ∃ s, u.path = Path.parse s := by
  unfold parseWeb at h
  dsimp only at h
  split at h
  · cases h
  · cases h
    exact ⟨_, rfl⟩

/-- The path of a URL of the web was read. -/
lemma path_of_parse {text : String} {u : Url} (h : parse idna text = .ok (.web u)) : ∃ s, u.path = Path.parse s := by
  have hweb {scheme : Scheme} {port : Nat} {rest : List Char}
      (h : (parseWeb idna scheme port rest).map Reference.web = .ok (.web u)) : ∃ s, u.path = Path.parse s := by
    obtain ⟨v, hv, hvu⟩ := map_eq_ok h
    cases hvu
    exact path_of_parseWeb hv
  unfold parse at h
  split at h
  · cases h
  split at h
  · exact hweb h
  split at h
  · exact hweb h
  · obtain ⟨_, _, hother⟩ := map_eq_ok h
    cases hother

lemma settled_of_parse {text : String} {u : Url} (h : parse idna text = .ok (.web u)) : ∀ s ∈ u.path, Settled s := by
  obtain ⟨s, hs⟩ := path_of_parse h
  rw [hs]
  exact fun _ => Path.settled_of_mem_parse

end Url

namespace Endpoint

open Url.Path (Settled)

lemma trimEnd_slash (s : List Char) : trimEnd (s ++ ['/']) = trimEnd s := by
  rw [trimEnd, List.reverse_append, List.reverse_singleton, List.singleton_append, List.dropWhile_cons_of_pos (by decide),
    trimEnd]

lemma trimEnd_of_getLast {s : List Char} {c : Char} (h : c ≠ '/') : trimEnd (s ++ [c]) = s ++ [c] := by
  rw [trimEnd, List.reverse_append, List.reverse_singleton, List.singleton_append,
    List.dropWhile_cons_of_neg (by simpa using h), List.reverse_cons, List.reverse_reverse]

/-- Without the slashes at its end, a path is the path of its first segments. -/
lemma exists_trimEnd {segments : List (List Char)} (h : ∀ s ∈ segments, Settled s) :
    ∃ front, front <+: segments ∧ Url.Path.text front = trimEnd (Url.Path.text segments) := by
  induction segments using List.reverseRecOn with
  | nil => exact ⟨[], List.nil_prefix, rfl⟩
  | append_singleton segments s ih =>
    have htext : Url.Path.text [s] = '/' :: s := List.append_nil _
    rcases List.eq_nil_or_concat' s with rfl | ⟨start, c, rfl⟩
    · obtain ⟨front, hfront, htrim⟩ := ih fun t ht => h t (List.mem_append_left _ ht)
      refine ⟨front, hfront.trans (List.prefix_append _ _), ?_⟩
      rw [Url.Path.text_append, htext, trimEnd_slash, htrim]
    · refine ⟨segments ++ [start ++ [c]], List.prefix_rfl, ?_⟩
      have hc : c ≠ '/' := ((h _ (List.mem_append_right _ List.mem_cons_self)).undivided c (by simp)).1
      rw [Url.Path.text_append, htext, ← List.cons_append, ← List.append_assoc, trimEnd_of_getLast hc]

lemma dropWhile_slash {first : List Char} (hne : first ≠ []) (hfirst : Settled first) (rest : List Char) :
    ('/' :: (first ++ rest)).dropWhile (· = '/') = first ++ rest := by
  cases first with
  | nil => exact absurd rfl hne
  | cons c first =>
    have hc : c ≠ '/' := (hfirst.undivided c List.mem_cons_self).1
    rw [List.dropWhile_cons_of_pos (by decide), List.cons_append, List.dropWhile_cons_of_neg (by simpa using hc)]

variable {idna : Url.Idna} {base path : String} {u b : Url} {first : List Char} {segments : List (List Char)}

/-- The segments of an endpoint are those of its base without the empty ones at their end, and then those of its own path. -/
theorem of_path (h : of idna base path = .ok u) (hb : Url.parse idna base = .ok (.web b))
    (hpath : path.toList = Url.Path.text (first :: segments)) (hfirst : first ≠ [])
    (hsettled : ∀ s ∈ first :: segments, Settled s) :
    ∃ front, front <+: b.path ∧ Url.Path.text front = trimEnd (Url.Path.text b.path) ∧ u.path = front ++ first :: segments := by
  obtain ⟨front, hfront, htrim⟩ := exists_trimEnd (Url.settled_of_parse hb)
  refine ⟨front, hfront, htrim, ?_⟩
  have hall : ∀ s ∈ front ++ first :: segments, Settled s := by
    intro s hs
    exact (List.mem_append.mp hs).elim (fun hs => Url.settled_of_parse hb s (hfront.subset hs)) (hsettled s)
  have hjoin : join (Url.Path.text b.path) path.toList = Url.Path.text (front ++ first :: segments) := by
    have htext : Url.Path.text (first :: segments) = '/' :: (first ++ Url.Path.text segments) := rfl
    rw [join, ← htrim, hpath, htext, dropWhile_slash hfirst (hsettled first List.mem_cons_self), List.append_assoc,
      List.singleton_append, Url.Path.text_append, htext]
  unfold of at h
  rw [hb] at h
  cases h
  rw [Url.withPath, hjoin, Url.Path.filter_text hall]
  exact Url.Path.parse_text (by simp) hall

end Endpoint
end Cadence
