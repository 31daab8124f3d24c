import Cadence.Benchmark.Preparation
import Cadence.Proofs.Workload.Contract

/-!
# What a command needs to begin

A command is prepared unless its input is at fault: its list cannot be read as text, or its address is none of the web
(`prepares`). What it was prepared with is the keys of its list in the order that was asked for
(`prepare_listing_inv`), or payloads none of which has been issued (`prepare_upload_inv`).
-/

namespace Cadence

namespace CommandLine

/-- The list that a command works through. -/
def Command.listing? : Command → Option Listing
  | upload .. => none
  | download _ l => some l
  | findProviders _ l _ => some l
  | indexerLookup _ l _ => some l

end CommandLine

namespace Benchmark
open CommandLine (Command Listing Common)

/-- A command whose input cannot be worked with: its list cannot be read as text, or its address is none of the web. -/
inductive Unready (idna : Url.Idna) (c : Command) (tree : FileTree) : Prop where
  | list {l e} : c.listing? = some l → tree.readText l.cids = .error e → Unready idna c tree
  | base {e} : Url.parse idna c.target = .error e → Unready idna c tree
  | scheme {scheme} : Url.parse idna c.target = .ok (.other scheme) → Unready idna c tree

/-- An operation has an executor exactly if its address is one of the web; otherwise the input is at fault. -/
inductive Connects (idna : Url.Idna) (base : String) : Except Failure Executor → Prop where
  | web {e u} : Url.parse idna base = .ok (.web u) → Connects idna base (.ok e)
  | unreadable {f e} : f.invalidInput = true → Url.parse idna base = .error e → Connects idna base (.error f)
  | foreign {f scheme} :
      f.invalidInput = true → Url.parse idna base = .ok (.other scheme) → Connects idna base (.error f)

lemma connects (idna : Url.Idna) (op : Operation) (base : String) (most : Nat) :
    Connects idna base (connect idna op base most) := by
  -- the executors differ only in what they do with their endpoint
  have key : ∀ (path : String) (make : Url → Executor),
      Connects idna base (((Endpoint.of idna base path).map make).mapError Endpoint.EndpointError.failure) := by
    intro path make
    unfold Endpoint.of
    cases hb : Url.parse idna base with
    | error e => exact .unreadable rfl hb
    | ok r =>
      cases r with
      | web u => exact .web hb
      | other scheme => exact .foreign rfl hb
  cases op with
  | upload => exact key "/api/v0/add" _
  | download => exact key "/api/v0/cat" _
  | findProviders => exact key "/api/v0/routing/findprovs" _
  | indexerLookup => exact key "/cid" _

/-- The keys of a listing can be read exactly if its file can be read as text; otherwise the input is at fault. -/
lemma readKeys_cases (tree : FileTree) (l : Listing) :
    (∃ text, tree.readText l.cids = .ok text ∧ readKeys tree l = .ok (Identifiers.ofText text)) ∨
    ∃ e f, tree.readText l.cids = .error e ∧ readKeys tree l = .error f ∧ f.invalidInput = true := by
  unfold readKeys Identifiers.read
  cases ht : tree.readText l.cids with
  | ok text => exact .inl ⟨text, rfl, rfl⟩
  | error e => exact .inr ⟨e, _, rfl, rfl, rfl⟩

/-- A command that works through a list is prepared with it. -/
lemma prepare_listing {c : Command} {l : Listing} (h : c.listing? = some l) :
    ∃ most, ∀ idna tree chance,
      prepare idna c tree chance = prepareKeys idna c.operation c.target most l tree chance := by
  cases c <;> cases h
  case download => exact ⟨_, fun _ _ _ => rfl⟩
  case findProviders => exact ⟨_, fun _ _ _ => rfl⟩
  case indexerLookup => exact ⟨_, fun _ _ _ => rfl⟩

/-- A command that works through no list is an upload. -/
lemma upload_of_listing? {c : Command} (h : c.listing? = none) :
    ∃ common size count path, c = .upload common size count path := by
  cases c <;> cases h
  exact ⟨_, _, _, _, rfl⟩

/-- A command is prepared, or its input is at fault and it fails for that. -/
inductive Prepares (idna : Url.Idna) (c : Command) (tree : FileTree) : Except Failure Prepared → Prop where
  | ready {p} : ¬ Unready idna c tree → Prepares idna c tree (.ok p)
  | unready {f} : Unready idna c tree → f.invalidInput = true → Prepares idna c tree (.error f)

/-- What becomes of a command that has everything but its executor. -/
lemma prepares_of_connects {idna : Url.Idna} {c : Command} {tree : FileTree} {result} (make : Executor → Prepared)
    (hlist : ∀ l, c.listing? = some l → ∃ text, tree.readText l.cids = .ok text)
    (h : Connects idna c.target result) : Prepares idna c tree (result.map make) := by
  cases h with
  | web hu =>
    refine .ready fun hunready => ?_
    cases hunready with
    | list hl he =>
      obtain ⟨text, ht⟩ := hlist _ hl
      cases ht.symm.trans he
    | base he => cases hu.symm.trans he
    | scheme he => cases hu.symm.trans he
  | unreadable hf he => exact .unready (.base he) hf
  | foreign hf he => exact .unready (.scheme he) hf

/-- A command whose payloads have a size is prepared unless its input is at fault. -/
theorem prepares {c : Command} (idna : Url.Idna) (tree : FileTree) (chance : Chance)
    (h : ∀ common size count path, c = .upload common size count path → 0 < size) :
    Prepares idna c tree (prepare idna c tree chance) := by
  cases hl : c.listing? with
  | none =>
    obtain ⟨common, size, count, path, rfl⟩ := upload_of_listing? hl
    have hsize : size ≠ 0 := Nat.ne_of_gt (h _ _ _ _ rfl)
    simp only [prepare, prepareUploads, Payloads.create, if_neg hsize]
    refine prepares_of_connects _ (fun l hl' => ?_) (connects _ _ _ _)
    cases hl.symm.trans hl'
  | some l =>
    obtain ⟨most, hprepare⟩ := prepare_listing hl
    rw [hprepare, prepareKeys]
    rcases readKeys_cases tree l with ⟨text, ht, hk⟩ | ⟨e, f, ht, hk, hf⟩
    · rw [hk]
      refine prepares_of_connects _ (fun l' hl' => ⟨text, ?_⟩) (connects _ _ _ _)
      rw [hl] at hl'
      obtain rfl := Option.some.inj hl'
      exact ht
    · rw [hk]
      exact .unready (.list hl ht) hf

variable {idna : Url.Idna} {c : Command} {tree : FileTree} {chance : Chance} {p : Prepared}

/-- A command that works through a list is prepared with the keys in it, in the order that was asked for. -/
lemma prepare_listing_inv {l : Listing} (h : prepare idna c tree chance = .ok p) (hl : c.listing? = some l) :
    ∃ text, tree.readText l.cids = .ok text ∧
      p.source = .keys (arrange chance l (Identifiers.ofText text).toArray) := by
  obtain ⟨most, hprepare⟩ := prepare_listing hl
  rw [hprepare, prepareKeys] at h
  rcases readKeys_cases tree l with ⟨text, ht, hk⟩ | ⟨_, _, _, hk, _⟩
  · rw [hk] at h
    obtain ⟨e, _, rfl⟩ := CommandLine.Setting.map_eq_ok h
    exact ⟨text, ht, rfl⟩
  · rw [hk] at h
    cases h

/-- An upload is prepared with payloads none of which has been issued. -/
lemma prepare_upload_inv {common : Common} {size count : Nat} {path : String}
    (h : prepare idna (.upload common size count path) tree chance = .ok p) :
    p.source = .payloads ⟨size, uploadCount count, 0⟩ := by
  simp only [prepare, prepareUploads, Payloads.create] at h
  split at h
  · cases h
  · next payloads hpayloads =>
    obtain ⟨e, _, rfl⟩ := CommandLine.Setting.map_eq_ok h
    split at hpayloads
    · cases hpayloads
    · cases hpayloads
      rfl

end Benchmark
end Cadence
