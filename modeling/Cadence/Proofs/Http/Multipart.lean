import Cadence.Http.Multipart.Decoder
import Cadence.Proofs.Text.Utf8
import Mathlib.Data.List.Infix
import Mathlib.Tactic.MkIffOfInductiveProp

/-!
# Files out of one body

A body is decoded to the files that it was made of, byte for byte (`body_is_decoded`), if no file holds the delimiter: no
match of it can begin in a file and end in what stands after the file, as a delimiter holds only one carriage return.
-/

namespace Cadence.Http.Multipart

open Text

/-- A text without line ends. -/
def OneLine (s : String) : Prop := ∀ c ∈ s.toList, c ≠ '\r' ∧ c ≠ '\n'

lemma oneLine_iff {s : String} : OneLine s ↔ s.toList.all (fun c => c ≠ '\r' ∧ c ≠ '\n') = true := by
  simp only [OneLine, List.all_eq_true, decide_eq_true_iff]

instance (s : String) : Decidable (OneLine s) := decidable_of_iff _ oneLine_iff.symm

/-- A file that can stand in a body with a boundary: the delimiter does not occur in it, and its field and its name hold
neither quotes nor line ends. -/
@[mk_iff]
structure Framable (boundary : String) (p : Part) : Prop where
  field_line : OneLine p.field
  field_quote : '"' ∉ p.field.toList
  name_line : OneLine p.fileName
  name_quote : '"' ∉ p.fileName.toList
  no_delimiter : ¬ (lineEnd ++ dashes boundary) <:+: lineEnd ++ p.contents

instance (boundary : String) (p : Part) : Decidable (Framable boundary p) := decidable_of_iff _ (framable_iff boundary p).symm

lemma splitFirst_append {mark before : List UInt8} (hmark : mark ≠ []) (h : ¬ mark <:+: before ++ mark.dropLast)
    (after : List UInt8) : splitFirst mark (before ++ mark ++ after) = some (before, after) := by
  induction before with
  | nil =>
    cases mark with
    | nil => exact absurd rfl hmark
    | cons x mark =>
      have hhead : (x :: mark).isPrefixOf (x :: (mark ++ after)) = true :=
        List.isPrefixOf_iff_prefix.mpr (List.prefix_append (x :: mark) after)
      rw [List.nil_append, List.cons_append, splitFirst, if_pos hhead]
      simp
  | cons b before ih =>
    have hhead : ¬ mark.isPrefixOf (b :: (before ++ mark ++ after)) = true := by
      -- what is a match here ends before the mark does, where there is none
      intro hmatch
      have hwhole : (b :: before) ++ mark.dropLast <+: (b :: before) ++ (mark ++ after) :=
        (List.prefix_append_right_inj _).mpr ((List.dropLast_prefix mark).trans (List.prefix_append mark after))
      have hlength : mark.length ≤ ((b :: before) ++ mark.dropLast).length := by
        rw [List.length_append, List.length_cons, List.length_dropLast]
        omega
      have hmatch : mark <+: (b :: before) ++ (mark ++ after) := by simpa using hmatch
      exact h (List.prefix_of_prefix_length_le hmatch hwhole hlength).isInfix
    have ih := ih fun hinfix => h (List.infix_cons hinfix)
    rw [List.cons_append, List.cons_append, splitFirst, if_neg hhead, ih]
    rfl

section Occurrences

variable {x : UInt8} {mark s : List UInt8}

/-- What begins with a byte that does not come again in it cannot begin in a text and end in what it is followed by. -/
lemma infix_of_infix_append_dropLast (hx : x ∉ mark) (h : x :: mark <:+: s ++ (x :: mark).dropLast) : x :: mark <:+: s := by
  rcases List.infix_append_iff.mp h with hs | hlast | ⟨start, rest, hparts, hstart, hrest⟩
  · exact hs
  · have hlength := hlast.length_le
    rw [List.length_dropLast, List.length_cons] at hlength
    omega
  · cases rest with
    | nil =>
      rw [hparts, List.append_nil]
      exact hstart.isInfix
    | cons y rest =>
      -- the match ends in the mark, so it holds its first byte once more
      have hy : y = x := by
        have hfirst := (hrest.trans (List.dropLast_prefix _))
        exact (List.cons_prefix_cons.mp hfirst).1
      cases start with
      | nil =>
        have hlength := hrest.length_le
        rw [List.nil_append] at hparts
        rw [← hparts, List.length_dropLast, List.length_cons] at hlength
        omega
      | cons z start =>
        rw [List.cons_append, List.cons.injEq] at hparts
        rw [hparts.2, hy] at hx
        exact absurd (List.mem_append_right _ List.mem_cons_self) hx

/-- Where the first byte of a mark does not come, no match begins. -/
lemma infix_of_infix_append {start : List UInt8} (hx : x ∉ start) (h : x :: mark <:+: start ++ s) : x :: mark <:+: s := by
  induction start with
  | nil => exact h
  | cons b start ih =>
    rcases List.infix_cons_iff.mp h with hhead | hinfix
    · rw [List.cons_prefix_cons] at hhead
      exact absurd (hhead.1 ▸ List.mem_cons_self) hx
    · exact ih (fun hmem => hx (List.mem_cons_of_mem _ hmem)) hinfix

/-- No match begins at a line end that is followed by another byte than in the mark. -/
lemma infix_of_infix_lineEnd {y z : UInt8} (hne : y ≠ z) (h : lineEnd ++ (y :: mark) <:+: lineEnd ++ (z :: s)) :
    lineEnd ++ (y :: mark) <:+: z :: s := by
  rcases List.infix_cons_iff.mp h with hhead | hinfix
  · have hnext := (List.cons_prefix_cons.mp (List.cons_prefix_cons.mp hhead).2).2
    exact absurd (List.cons_prefix_cons.mp hnext).1 hne
  · have hline : (13 : UInt8) ∉ [10] := by decide
    exact infix_of_infix_append hline hinfix

end Occurrences

/-- The first line of a head. -/
def disposition (p : Part) : List UInt8 :=
  bytes "Content-Disposition: form-data; name=\"" ++ (bytes p.field ++ (bytes "\"" ++ (bytes "; filename=\""
    ++ (bytes p.fileName ++ bytes "\""))))

/-- The second line of a head. -/
def typeLine : List UInt8 := bytes "Content-Type: application/octet-stream"

lemma head_eq (p : Part) : head p = disposition p ++ (lineEnd ++ typeLine) := by
  have hmiddle : bytes "\"; filename=\"" = bytes "\"" ++ bytes "; filename=\"" := rfl
  simp only [head, disposition, typeLine, hmiddle, List.append_assoc]

/-- What stands between a delimiter and the next one. -/
def raw (p : Part) : List UInt8 := head p ++ (lineEnd ++ lineEnd) ++ p.contents

/-- What stands after the first delimiter of a body. -/
def afterDashes (boundary : String) : List Part → List UInt8
  | [] => bytes "--" ++ lineEnd
  | p :: ps => lineEnd ++ (raw p ++ (lineEnd ++ dashes boundary) ++ afterDashes boundary ps)

lemma encode_eq (boundary : String) (parts : List Part) : encode boundary parts = dashes boundary ++ afterDashes boundary parts := by
  induction parts with
  | nil => rw [encode_nil, closing, afterDashes, List.append_assoc]
  | cons p ps ih =>
    rw [encode_cons, ih]
    simp only [framed, raw, afterDashes, List.append_assoc]

variable {boundary : String} {p : Part}

lemma OneLine.return_not_mem {s : String} (h : OneLine s) : 13 ∉ bytes s :=
  fun hmem => (h _ (Utf8.mem_of_mem_encode hmem (by decide))).1 rfl

lemma return_not_mem_dashes (h : OneLine boundary) : 13 ∉ dashes boundary := by
  rw [dashes, List.mem_append]
  rintro (hdash | hmem)
  · exact absurd hdash (by decide)
  · exact h.return_not_mem hmem

lemma Framable.return_not_mem_disposition (h : Framable boundary p) : 13 ∉ disposition p := by
  simp only [disposition, List.mem_append, not_or]
  exact ⟨by decide, h.field_line.return_not_mem, by decide, by decide, h.name_line.return_not_mem, by decide⟩

lemma return_not_mem_typeLine : 13 ∉ typeLine := by decide

/-- In a part, a delimiter could only begin with the line end in front of the contents. -/
lemma Framable.no_delimiter_in_raw (h : Framable boundary p) : ¬ (lineEnd ++ dashes boundary) <:+: raw p := by
  intro hinfix
  have hraw : raw p = disposition p ++ (lineEnd ++ (typeLine ++ (lineEnd ++ (lineEnd ++ p.contents)))) := by
    simp only [raw, head_eq, List.append_assoc]
  rw [hraw] at hinfix
  have hline := infix_of_infix_append h.return_not_mem_disposition hinfix
  have htype := infix_of_infix_append return_not_mem_typeLine (infix_of_infix_lineEnd (by decide) hline)
  exact h.no_delimiter (infix_of_infix_lineEnd (by decide) htype)

lemma Framable.splitPart_raw (h : Framable boundary p) : splitPart (raw p) = some (head p, p.contents) := by
  refine splitFirst_append (by decide) (fun hinfix => ?_) p.contents
  rw [head_eq, List.append_assoc, List.append_assoc] at hinfix
  have hline := infix_of_infix_append h.return_not_mem_disposition hinfix
  have hend := infix_of_infix_append return_not_mem_typeLine (infix_of_infix_lineEnd (by decide) hline)
  exact absurd hend.length_le (by decide)

lemma afterStart?_append (start s : List UInt8) : afterStart? start (start ++ s) = some s := by
  rw [afterStart?, if_pos (List.isPrefixOf_iff_prefix.mpr (List.prefix_append start s)), List.drop_left]

lemma quoted?_append {s : String} (h : '"' ∉ s.toList) (rest : List UInt8) :
    quoted? (bytes s ++ (bytes "\"" ++ rest)) = some (s, rest) := by
  have hquote : ¬ bytes "\"" <:+: bytes s ++ (bytes "\"").dropLast := by
    show ¬ [34] <:+: bytes s ++ []
    rw [List.append_nil, List.singleton_infix_iff]
    exact fun hmem => h (Utf8.mem_of_mem_encode hmem (by decide))
  have hsplit := splitFirst_append (by decide) hquote rest
  rw [List.append_assoc] at hsplit
  have hdecode : Utf8.decode? (bytes s) = some s := Utf8.decode?_encode s
  simp only [quoted?, hsplit, hdecode, Option.bind_eq_bind, Option.bind_some, Option.pure_def]

lemma Framable.ofHead?_head (h : Framable boundary p) : ofHead? (head p) = some (p.field, p.fileName) := by
  rw [head_eq, disposition]
  simp only [ofHead?, List.append_assoc, afterStart?_append, quoted?_append h.field_quote, quoted?_append h.name_quote,
    Option.bind_eq_bind, Option.bind_some, Option.pure_def]

lemma Framable.ofRaw?_raw (h : Framable boundary p) : ofRaw? (raw p) = some p := by
  simp only [ofRaw?, h.splitPart_raw, h.ofHead?_head, Option.bind_eq_bind, Option.bind_some, Option.pure_def]

lemma rawParts_append {part rest : List UInt8} (hb : OneLine boundary) (h : ¬ (lineEnd ++ dashes boundary) <:+: part) :
    rawParts boundary (lineEnd ++ (part ++ (lineEnd ++ dashes boundary) ++ rest))
      = (rawParts boundary rest).map (part :: ·) := by
  have hmark : 13 ∉ 10 :: dashes boundary := by
    rw [List.mem_cons, not_or]
    exact ⟨by decide, return_not_mem_dashes hb⟩
  have hsplit : splitFirst (lineEnd ++ dashes boundary) (part ++ (lineEnd ++ dashes boundary) ++ rest) = some (part, rest) :=
    splitFirst_append (List.cons_ne_nil _ _) (fun hinfix => h (infix_of_infix_append_dropLast hmark hinfix)) rest
  have hclosing : ¬ (bytes "--").isPrefixOf (lineEnd ++ (part ++ (lineEnd ++ dashes boundary) ++ rest)) = true := nofun
  have hline : lineEnd.isPrefixOf (lineEnd ++ (part ++ (lineEnd ++ dashes boundary) ++ rest)) = true := rfl
  have hdrop : (lineEnd ++ (part ++ (lineEnd ++ dashes boundary) ++ rest)).drop 2
      = part ++ (lineEnd ++ dashes boundary) ++ rest := rfl
  rw [rawParts, if_neg hclosing, if_pos hline]
  split
  · next hnone =>
    rw [hdrop, hsplit] at hnone
    cases hnone
  · next hsome =>
    rw [hdrop, hsplit] at hsome
    cases hsome
    rfl

lemma rawParts_afterDashes (hb : OneLine boundary) {parts : List Part} (h : ∀ p ∈ parts, Framable boundary p) :
    rawParts boundary (afterDashes boundary parts) = some (parts.map raw) := by
  induction parts with
  | nil =>
    rw [afterDashes, rawParts]
    rfl
  | cons p ps ih =>
    have hp := h p List.mem_cons_self
    have ih := ih fun q hq => h q (List.mem_cons_of_mem _ hq)
    rw [afterDashes, rawParts_append hb hp.no_delimiter_in_raw, ih]
    rfl

lemma mapM_raw {parts : List Part} (h : ∀ p ∈ parts, Framable boundary p) : (parts.map raw).mapM ofRaw? = some parts := by
  induction parts with
  | nil => rfl
  | cons p ps ih =>
    have hp := h p List.mem_cons_self
    have ih := ih fun q hq => h q (List.mem_cons_of_mem _ hq)
    rw [List.map_cons, List.mapM_cons, hp.ofRaw?_raw, ih]
    rfl

lemma decode?_encode (hb : OneLine boundary) {parts : List Part} (h : ∀ p ∈ parts, Framable boundary p) :
    decode? boundary (encode boundary parts) = some parts := by
  rw [decode?, encode_eq, afterStart?_append, Option.bind_eq_bind, Option.bind_some, rawParts_afterDashes hb h]
  exact mapM_raw h

/-- A body is decoded to the files that it was made of, in their order and byte for byte, if its boundary is of one line and
all files can stand in it. So no other files make the same body. -/
theorem body_is_decoded {boundary : String} (hb : OneLine boundary) {parts : List Part}
    (h : ∀ p ∈ parts, Framable boundary p) :
    decode? boundary (encode boundary parts) = some parts ∧
      ∀ others, (∀ p ∈ others, Framable boundary p) → encode boundary others = encode boundary parts → others = parts := by
  refine ⟨decode?_encode hb h, fun others ho hsame => ?_⟩
  have hothers := decode?_encode hb ho
  rw [hsame, decode?_encode hb h] at hothers
  exact (Option.some.inj hothers).symm

/-- A file that ends where a delimiter could begin, and an empty one. -/
theorem partial_delimiter_is_decoded :
    OneLine "b" ∧ (∀ p ∈ [⟨"file", "a", [1, 13, 10, 45, 45]⟩, ⟨"file", "", []⟩], Framable "b" p) ∧
      decode? "b" (encode "b" [⟨"file", "a", [1, 13, 10, 45, 45]⟩, ⟨"file", "", []⟩])
        = some [⟨"file", "a", [1, 13, 10, 45, 45]⟩, ⟨"file", "", []⟩] ∧
      ∀ others, (∀ p ∈ others, Framable "b" p) →
        encode "b" others = encode "b" [⟨"file", "a", [1, 13, 10, 45, 45]⟩, ⟨"file", "", []⟩] →
        others = [⟨"file", "a", [1, 13, 10, 45, 45]⟩, ⟨"file", "", []⟩] := by
  have hb : OneLine "b" := by decide
  have h : ∀ p ∈ [⟨"file", "a", [1, 13, 10, 45, 45]⟩, ⟨"file", "", []⟩], Framable "b" p := by decide
  exact ⟨hb, h, body_is_decoded hb h⟩

end Cadence.Http.Multipart
