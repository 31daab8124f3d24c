import Cadence.Gateway.KeyedHash
import Cadence.Text.Hex

/-!
# The store of the gateway

Contents under identifiers that are made from them: a hash, and the length.

* `Store.get?_insert`: what was stored last under an identifier is found.
-/

namespace Cadence.Gateway

open Text

/-- The hash in an identifier: of the length of the content and its bytes. -/
def contentHash (content : List UInt8) : UInt64 :=
  KeyedHash.of (KeyedHash.lengthBytes content.length ++ content)

/-- The identifier of a content. -/
def contentId (content : List UInt8) : String :=
  String.ofList ("bafkfake".toList ++ Hex.digits 16 (contentHash content).toNat ++ Hex.digits 8 content.length)

/-- The contents that a gateway holds, the newest first. -/
structure Store where
  blocks : List (String × List UInt8)
deriving DecidableEq

namespace Store

/-- Nothing is held. -/
def empty : Store := ⟨[]⟩

/-- The content under an identifier. -/
def get? (s : Store) (id : String) : Option (List UInt8) :=
  (s.blocks.find? fun b => b.1 == id).map Prod.snd

/-- Whether there is a content under an identifier. -/
def contains (s : Store) (id : String) : Bool := (s.get? id).isSome

/-- Stores a content under its identifier, in place of one that is there. -/
def insert (s : Store) (content : List UInt8) : Store :=
  ⟨(contentId content, content) :: s.blocks.filter fun b => b.1 != contentId content⟩

theorem find?_filter_ne {bs : List (String × List UInt8)} {id key : String} (h : id ≠ key) :
    (bs.filter fun b => b.1 != key).find? (fun b => b.1 == id) = bs.find? fun b => b.1 == id := by
  induction bs with
  | nil => rfl
  | cons b bs ih =>
    by_cases hk : b.1 = key
    · have hb : ¬ b.1 = id := fun e => h (e.symm.trans hk)
      rw [List.filter_cons_of_neg (by simp [hk]), ih, List.find?_cons_of_neg (by simp [hb])]
    · rw [List.filter_cons_of_pos (by simp [hk])]
      by_cases hb : b.1 = id
      · rw [List.find?_cons_of_pos (by simp [hb]), List.find?_cons_of_pos (by simp [hb])]
      · rw [List.find?_cons_of_neg (by simp [hb]), List.find?_cons_of_neg (by simp [hb]), ih]

theorem get?_insert (s : Store) (content : List UInt8) (id : String) :
    (s.insert content).get? id = if id = contentId content then some content else s.get? id := by
  unfold insert get?
  by_cases h : id = contentId content
  · subst h; simp
  · have hb : (contentId content == id) = false := by simpa using fun e => h e.symm
    rw [if_neg h, List.find?_cons_of_neg (by simp [hb]), find?_filter_ne h]

end Store
end Cadence.Gateway
