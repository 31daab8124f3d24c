import Cadence.Proofs.Json.Numeral

/-!
# What is written is read back

A value whose numbers are number literals and whose strings have content (`Value.IsSound`) is read back from its compact
text (`parse?_render`), and that text is one line: there is no control character in it (`printable_render`).
-/

namespace Cadence.Json

section Strings

variable {content : Option (List Char)} {r : List Char}

lemma readString_close : readString content ('"' :: r) = some (content.map fun cs => String.ofList cs.reverse, r) := by
  rw [readString]

/-- A character that is neither special nor a control character stands for itself. -/
lemma readString_plain {c : Char} (hquote : c ≠ '"') (hescape : c ≠ '\\') (hprintable : 32 ≤ c.toNat) :
    readString content (c :: r) = readString (content.map (c :: ·)) r := by
  rw [readString]
  · rw [if_neg]
    simp [hescape]
    omega
  all_goals simp [hquote, hescape]

/-- A letter after a backslash stands for a character. -/
lemma readString_letter {e c : Char} (hu : e ≠ 'u') (h : unescape? e = some c) :
    readString content ('\\' :: e :: r) = readString (content.map (c :: ·)) r := by
  rw [readString]
  · rw [h]
  all_goals simp [hu]

/-- A code unit that is no half of a pair stands for its character, whatever follows it. -/
lemma readString_code {a b c d : Char} {n : Nat} (h : hex4? a b c d = some n) (hhigh : isHigh n = false)
    (hlow : isLow n = false) :
    readString content ('\\' :: 'u' :: a :: b :: c :: d :: r) = readString (content.map (Char.ofNat n :: ·)) r := by
  by_cases hpair : ∃ e f g i r', r = '\\' :: 'u' :: e :: f :: g :: i :: r'
  · obtain ⟨e, f, g, i, r', rfl⟩ := hpair
    rw [readString]
    simp [h, hhigh, hlow]
  · rw [readString]
    · simp [h, hhigh, hlow]
    · intro e f g i r' hr
      exact hpair ⟨e, f, g, i, r', hr⟩

/-- The code unit of a control character. -/
lemma hex4?_control {n : Nat} (h : n < 32) :
    hex4? '0' '0' (Text.Hex.lower (n / 16)) (Text.Hex.lower (n % 16)) = some n := by
  have hzero : Text.Hex.value? '0' = some 0 := by decide
  have hhigh := Text.Hex.value?_lower (n := n / 16) (by omega)
  have hlow := Text.Hex.value?_lower (n := n % 16) (by omega)
  simp only [hex4?, hzero, hhigh, hlow, Option.bind_eq_bind, Option.bind_some, Option.pure_def, Option.some.injEq]
  omega

/-- How a character is written: by a letter, by its code, or by itself. -/
inductive Escapes (c : Char) : List Char → Prop where
  | letter {e} : e ≠ 'u' → 32 ≤ e.toNat → unescape? e = some c → Escapes c ['\\', e]
  | code : c.toNat < 32 →
    Escapes c ['\\', 'u', '0', '0', Text.Hex.lower (c.toNat / 16), Text.Hex.lower (c.toNat % 16)]
  | plain : c ≠ '"' → c ≠ '\\' → 32 ≤ c.toNat → Escapes c [c]

lemma escapes (c : Char) : Escapes c (escapeChar c) := by
  have hcode : ∀ n, c.toNat = n → Char.ofNat n = c := by
    rintro _ rfl
    exact Char.ofNat_toNat c
  unfold escapeChar
  split
  · next h => subst h; exact .letter (by decide) (by decide) rfl
  split
  · next h => subst h; exact .letter (by decide) (by decide) rfl
  split
  · next h => subst h; exact .letter (by decide) (by decide) rfl
  split
  · next h => subst h; exact .letter (by decide) (by decide) rfl
  split
  · next h => subst h; exact .letter (by decide) (by decide) rfl
  split
  · next h => exact .letter (by decide) (by decide) (by rw [← hcode 8 h]; decide)
  split
  · next h => exact .letter (by decide) (by decide) (by rw [← hcode 12 h]; decide)
  split
  · next h => exact .code h
  · next hquote hescape _ _ _ _ _ hprintable => exact .plain hquote hescape (Nat.le_of_not_lt hprintable)

/-- A character is read back from its escape. -/
lemma readString_escapeChar (c : Char) :
    readString content (escapeChar c ++ r) = readString (content.map (c :: ·)) r := by
  have hescapes := escapes c
  generalize escapeChar c = cs at hescapes ⊢
  cases hescapes with
  | letter hu _ h => exact readString_letter hu h
  | code h =>
    have hhigh : isHigh c.toNat = false := by simp only [isHigh, Bool.and_eq_false_iff]; left; simp; omega
    have hlow : isLow c.toNat = false := by simp only [isLow, Bool.and_eq_false_iff]; left; simp; omega
    have hread : readString content
        ('\\' :: 'u' :: '0' :: '0' :: Text.Hex.lower (c.toNat / 16) :: Text.Hex.lower (c.toNat % 16) :: r)
        = readString (content.map (Char.ofNat c.toNat :: ·)) r := readString_code (hex4?_control h) hhigh hlow
    rw [Char.ofNat_toNat] at hread
    exact hread
  | plain hquote hescape hprintable => exact readString_plain hquote hescape hprintable

/-- A string is read back from its literal. -/
lemma readString_quote (s acc rest : List Char) :
    readString (some acc) (s.flatMap escapeChar ++ '"' :: rest)
      = some (some (String.ofList (acc.reverse ++ s)), rest) := by
  induction s generalizing acc with
  | nil => rw [List.flatMap_nil, List.nil_append, readString_close, List.append_nil]; rfl
  | cons c s ih =>
    rw [List.flatMap_cons, List.append_assoc, readString_escapeChar, Option.map_some, ih]
    simp

lemma printable_lower {n : Nat} (h : n < 16) : 32 ≤ (Text.Hex.lower n).toNat := by
  have key : ∀ m ∈ List.range 16, 32 ≤ (Text.Hex.lower m).toNat := by decide
  exact key n (List.mem_range.mpr h)

/-- No escape has a control character in it. -/
lemma printable_escapeChar {c d : Char} (h : d ∈ escapeChar c) : 32 ≤ d.toNat := by
  have hescapes := escapes c
  generalize escapeChar c = cs at h hescapes
  cases hescapes with
  | letter _ hprintable _ =>
    simp only [List.mem_cons, List.not_mem_nil, or_false] at h
    rcases h with rfl | rfl
    · decide
    · exact hprintable
  | code hcontrol =>
    have hlow := printable_lower (n := c.toNat % 16) (by omega)
    have hhigh := printable_lower (n := c.toNat / 16) (by omega)
    simp only [List.mem_cons, List.not_mem_nil, or_false] at h
    rcases h with rfl | rfl | rfl | rfl | rfl | rfl
    all_goals first | decide | exact hhigh | exact hlow
  | plain _ _ hprintable =>
    rw [List.mem_singleton.mp h]
    exact hprintable

end Strings

mutual

/-- Whether a value can be written: its numbers are number literals, and its strings and keys have content. -/
def Value.IsSound : Value → Prop
  | .number literal => IsNumber literal.toList
  | .string text => text.isSome
  | .array items => SoundItems items
  | .object fields => SoundFields fields
  | _ => True

/-- Whether all elements can be written. -/
def SoundItems : List Value → Prop
  | [] => True
  | v :: r => v.IsSound ∧ SoundItems r

/-- Whether all fields can be written. -/
def SoundFields : List (Option String × Value) → Prop
  | [] => True
  | (k, v) :: r => k.isSome ∧ v.IsSound ∧ SoundFields r

end

lemma quote?_append (text : String) (rest : List Char) :
    quote? (some text) ++ rest = '"' :: (text.toList.flatMap escapeChar ++ '"' :: rest) := by
  simp [quote?, quote]

lemma readString_quote? (text : String) (rest : List Char) :
    readString (some []) (text.toList.flatMap escapeChar ++ '"' :: rest) = some (some text, rest) := by
  rw [readString_quote, List.reverse_nil, List.nil_append, String.ofList_toList]

lemma dropWhile_isBlank {c : Char} (h : isBlank c = false) (s : List Char) : (c :: s).dropWhile isBlank = c :: s :=
  List.dropWhile_cons_of_neg (by simp [h])

/-- A number literal is read back as a number. -/
lemma readValue_number {literal : String} (h : IsNumber literal.toList) {rest : List Char}
    (hrest : beginsWith continuesNumber rest = false) (fuel : Nat) :
    readValue (fuel + 1) (literal.toList ++ rest) = some (.number literal, rest) := by
  obtain ⟨c, r, hcons, hc⟩ := h.cons
  have hread := readNumber_append h hrest
  rw [String.ofList_toList] at hread
  rw [hcons, List.cons_append] at hread ⊢
  have hne : ∀ d : Char, d ≠ '-' → d.isDigit = false → c ≠ d := by
    rintro d hminus hdigit rfl
    rcases hc with hc | hc
    · exact hminus hc
    · rw [hdigit] at hc
      cases hc
  have hblank : isBlank c = false := by
    simp [isBlank, hne ' ', hne '\t', hne '\n', hne '\r']
  rw [readValue, dropWhile_isBlank hblank]
  -- no other kind of value begins like a number
  have hother : ∀ d : Char, ∀ s : List Char, d ≠ '-' → d.isDigit = false → c :: (r ++ rest) ≠ d :: s :=
    fun d s hminus hdigit he => hne d hminus hdigit (List.cons.inj he).1
  split
  · next he => exact absurd he (hother '"' _ (by decide) (by decide))
  · next he => exact absurd he (hother '[' _ (by decide) (by decide))
  · next he => exact absurd he (hother '\x7b' _ (by decide) (by decide))
  · next he => exact absurd he (hother 't' _ (by decide) (by decide))
  · next he => exact absurd he (hother 'f' _ (by decide) (by decide))
  · next he => exact absurd he (hother 'n' _ (by decide) (by decide))
  · rw [hread]
    rfl

/-- A value begins with a character that is no blank and does not end an array. -/
lemma render_cons {v : Value} (h : v.IsSound) : ∃ c r, v.render = c :: r ∧ isBlank c = false ∧ c ≠ ']' := by
  cases v with
  | null => exact ⟨'n', _, rfl, by decide, by decide⟩
  | bool b => cases b <;> exact ⟨_, _, rfl, by decide, by decide⟩
  | number literal =>
    obtain ⟨c, r, hcons, hc⟩ := IsNumber.cons h
    refine ⟨c, r, hcons, ?_, ?_⟩
    · rcases hc with rfl | hc
      · decide
      · cases hb : isBlank c with
        | false => rfl
        | true =>
          simp only [isBlank, Bool.or_eq_true, decide_eq_true_eq] at hb
          rcases hb with ((rfl | rfl) | rfl) | rfl
          all_goals cases hc
    · rintro rfl
      rcases hc with hc | hc
      all_goals cases hc
  | string text => exact ⟨'"', _, rfl, by decide, by decide⟩
  | array items => exact ⟨'[', _, rfl, by decide, by decide⟩
  | object fields => exact ⟨'\x7b', _, rfl, by decide, by decide⟩

lemma renderItems_cons {v : Value} {r : List Value} (h : v.IsSound) :
    ∃ c s, renderItems (v :: r) = c :: s ∧ isBlank c = false ∧ c ≠ ']' := by
  obtain ⟨c, s, hcons, hblank, hne⟩ := render_cons h
  cases r with
  | nil => exact ⟨c, s, hcons, hblank, hne⟩
  | cons w r => exact ⟨c, s ++ [','] ++ renderItems (w :: r), by rw [renderItems, hcons]; rfl, hblank, hne⟩

lemma readValue_array {fuel : Nat} {c : Char} {s : List Char} (hblank : isBlank c = false) (hne : c ≠ ']') :
    readValue (fuel + 1) ('[' :: c :: s) = (readItems fuel (c :: s)).map fun found => (.array found.1, found.2) := by
  rw [readValue]
  simp only [dropWhile_isBlank (c := '[') rfl, dropWhile_isBlank hblank]
  split
  · next he => exact absurd (List.cons.inj he).1 hne
  · rfl

lemma field_append (key : String) (v : Value) (rest : List Char) : quote? (some key) ++ [':'] ++ v.render ++ rest
    = '"' :: (key.toList.flatMap escapeChar ++ '"' :: ':' :: (v.render ++ rest)) := by
  rw [← quote?_append]
  simp

section Fields

variable {fuel : Nat} {key : String} {v : Value} {rest : List Char}

/-- The last field of an object is read back, if its value is. -/
lemma readFields_last (hread : readValue fuel (v.render ++ '\x7d' :: rest) = some (v, '\x7d' :: rest)) :
    readFields (fuel + 1) (quote? (some key) ++ [':'] ++ v.render ++ '\x7d' :: rest)
      = some ([(some key, v)], rest) := by
  rw [field_append, readFields]
  simp only [dropWhile_isBlank (c := '"') rfl, dropWhile_isBlank (c := ':') rfl, dropWhile_isBlank (c := '\x7d') rfl,
    readString_quote?, hread]

/-- A field with others after it is read back before them, if its value is. -/
lemma readFields_more (hread : readValue fuel (v.render ++ ',' :: rest) = some (v, ',' :: rest)) :
    readFields (fuel + 1) (quote? (some key) ++ [':'] ++ v.render ++ ',' :: rest)
      = (readFields fuel rest).map fun found => ((some key, v) :: found.1, found.2) := by
  rw [field_append, readFields]
  simp only [dropWhile_isBlank (c := '"') rfl, dropWhile_isBlank (c := ':') rfl, dropWhile_isBlank (c := ',') rfl,
    readString_quote?, hread]

end Fields

/-- Fields begin with the quote of their first key. -/
lemma renderFields_cons (key : String) (v : Value) (r : List (Option String × Value)) :
    ∃ s, renderFields ((some key, v) :: r) = '"' :: s := by
  cases r with
  | nil => exact ⟨_, rfl⟩
  | cons f r => exact ⟨_, rfl⟩

mutual

/-- A value is read back before anything that does not go on with a number, given as much fuel as it has characters. -/
theorem readValue_render : ∀ (v : Value) (fuel : Nat) (rest : List Char), v.IsSound → v.render.length ≤ fuel →
    beginsWith continuesNumber rest = false → readValue fuel (v.render ++ rest) = some (v, rest)
  | .null, fuel + 1, rest, _, _, _ => rfl
  | .bool true, fuel + 1, rest, _, _, _ => rfl
  | .bool false, fuel + 1, rest, _, _, _ => rfl
  | .number literal, fuel + 1, rest, h, _, hrest => readValue_number h hrest fuel
  | .string (some text), fuel + 1, rest, _, _, _ => by
    show readValue (fuel + 1) (quote? (some text) ++ rest) = _
    rw [quote?_append]
    show (readString (some []) _).map _ = _
    rw [readString_quote?]
    rfl
  | .array [], fuel + 1, rest, _, _, _ => rfl
  | .array (v :: r), fuel + 1, rest, h, hfuel, hrest => by
    have hitems : SoundItems (v :: r) := h
    have hlength : (renderItems (v :: r)).length < fuel := by simp [Value.render] at hfuel; omega
    have hread := readItems_render (v :: r) fuel rest (by simp) hitems hlength
    obtain ⟨c, s, hcons, hblank, hne⟩ := renderItems_cons (r := r) hitems.1
    rw [hcons] at hread
    have htext : (Value.array (v :: r)).render ++ rest = '[' :: c :: (s ++ ']' :: rest) := by
      simp [Value.render, hcons]
    rw [List.cons_append] at hread
    rw [htext, readValue_array hblank hne, hread]
    rfl
  | .object [], fuel + 1, rest, _, _, _ => rfl
  | .object ((some key, v) :: r), fuel + 1, rest, h, hfuel, hrest => by
    have hfields : SoundFields ((some key, v) :: r) := h
    have hlength : (renderFields ((some key, v) :: r)).length < fuel := by simp [Value.render] at hfuel; omega
    have hread := readFields_render ((some key, v) :: r) fuel rest (by simp) hfields hlength
    obtain ⟨s, hcons⟩ := renderFields_cons key v r
    rw [hcons, List.cons_append] at hread
    have htext : (Value.object ((some key, v) :: r)).render ++ rest = '\x7b' :: '"' :: (s ++ '\x7d' :: rest) := by
      simp [Value.render, hcons]
    rw [htext]
    show (readFields fuel ('"' :: (s ++ '\x7d' :: rest))).map _ = _
    rw [hread]
    rfl
  | .object ((none, v) :: r), _, _, h, _, _ => by cases (show SoundFields ((none, v) :: r) from h).1
  | .null, 0, _, _, hfuel, _ => by simp [Value.render] at hfuel
  | .bool true, 0, _, _, hfuel, _ => by simp [Value.render] at hfuel
  | .bool false, 0, _, _, hfuel, _ => by simp [Value.render] at hfuel
  | .number literal, 0, _, h, hfuel, _ => by
    obtain ⟨c, r, hcons, _⟩ := IsNumber.cons h
    simp [Value.render, hcons] at hfuel
  | .string none, _, _, h, _, _ => by cases h
  | .string (some text), 0, _, _, hfuel, _ => by simp [Value.render, quote?, quote] at hfuel
  | .array items, 0, _, _, hfuel, _ => by simp [Value.render] at hfuel
  | .object fields, 0, _, _, hfuel, _ => by simp [Value.render] at hfuel

/-- Elements are read back up to the end of their array. -/
theorem readItems_render : ∀ (items : List Value) (fuel : Nat) (rest : List Char), items ≠ [] → SoundItems items →
    (renderItems items).length < fuel → readItems fuel (renderItems items ++ ']' :: rest) = some (items, rest)
  | [], _, _, hne, _, _ => absurd rfl hne
  | [v], fuel + 1, rest, _, h, hfuel => by
    have hread := readValue_render v fuel (']' :: rest) h.1 (Nat.le_of_lt_succ hfuel) rfl
    rw [readItems, renderItems, hread]
    rfl
  | v :: w :: r, fuel + 1, rest, _, h, hfuel => by
    rw [renderItems, List.length_append, List.length_append, List.length_singleton] at hfuel
    have hread := readValue_render v fuel (',' :: (renderItems (w :: r) ++ ']' :: rest)) h.1 (by omega) rfl
    have hitems := readItems_render (w :: r) fuel rest (by simp) h.2 (by omega)
    rw [readItems, renderItems, List.append_assoc, List.append_assoc, List.singleton_append, hread]
    show (readItems fuel _).map _ = _
    rw [hitems]
    rfl

/-- Fields are read back up to the end of their object. -/
theorem readFields_render : ∀ (fields : List (Option String × Value)) (fuel : Nat) (rest : List Char), fields ≠ [] →
    SoundFields fields → (renderFields fields).length < fuel →
    readFields fuel (renderFields fields ++ '\x7d' :: rest) = some (fields, rest)
  | [], _, _, hne, _, _ => absurd rfl hne
  | [(some key, v)], fuel + 1, rest, _, h, hfuel => by
    rw [renderFields, List.length_append] at hfuel
    have hread := readValue_render v fuel ('\x7d' :: rest) h.2.1 (by omega) rfl
    rw [renderFields, readFields_last hread]
  | (some key, v) :: f :: r, fuel + 1, rest, _, h, hfuel => by
    rw [renderFields, List.length_append, List.length_append, List.length_append, List.length_singleton] at hfuel
    have hread := readValue_render v fuel (',' :: (renderFields (f :: r) ++ '\x7d' :: rest)) h.2.1 (by omega) rfl
    have hfields := readFields_render (f :: r) fuel rest (by simp) h.2.2 (by omega)
    rw [renderFields, List.append_assoc, List.append_assoc, List.singleton_append, readFields_more hread, hfields]
    rfl
  | (none, _) :: _, _, _, _, h, _ => by cases h.1

end

/-- A value is read back from its compact text. -/
theorem parse?_render {v : Value} (h : v.IsSound) : Value.parse? v.render = some v := by
  have hread := readValue_render v (2 * v.render.length + 2) [] h (by omega) rfl
  rw [List.append_nil] at hread
  rw [Value.parse?, hread]
  rfl

lemma printable_of_all {cs : List Char} (h : cs.all (fun c => 32 ≤ c.toNat) = true) {c : Char} (hc : c ∈ cs) :
    32 ≤ c.toNat := of_decide_eq_true (List.all_eq_true.mp h c hc)

lemma printable_quote? {text : Option String} {c : Char} (h : c ∈ quote? text) : 32 ≤ c.toNat := by
  simp only [quote?, quote, List.mem_append, List.mem_singleton, List.mem_flatMap] at h
  rcases h with (rfl | ⟨d, _, hd⟩) | rfl
  · decide
  · exact printable_escapeChar hd
  · decide

mutual

/-- There are no control characters in the compact text of a value. -/
theorem printable_render : ∀ {v : Value} {c : Char}, v.IsSound → c ∈ v.render → 32 ≤ c.toNat
  | .null, _, _, hc => printable_of_all (by decide) hc
  | .bool true, _, _, hc => printable_of_all (by decide) hc
  | .bool false, _, _, hc => printable_of_all (by decide) hc
  | .number _, _, h, hc => IsNumber.printable h hc
  | .string _, _, _, hc => printable_quote? hc
  | .array items, c, h, hc => by
    simp only [Value.render, List.mem_append, List.mem_singleton] at hc
    rcases hc with (rfl | hc) | rfl
    · decide
    · exact printable_renderItems h hc
    · decide
  | .object fields, c, h, hc => by
    simp only [Value.render, List.mem_append, List.mem_singleton] at hc
    rcases hc with (rfl | hc) | rfl
    · decide
    · exact printable_renderFields h hc
    · decide

theorem printable_renderItems : ∀ {items : List Value} {c : Char}, SoundItems items → c ∈ renderItems items →
    32 ≤ c.toNat
  | [v], _, h, hc => printable_render h.1 hc
  | v :: w :: r, c, h, hc => by
    simp only [renderItems, List.mem_append, List.mem_singleton] at hc
    rcases hc with (hc | rfl) | hc
    · exact printable_render h.1 hc
    · decide
    · exact printable_renderItems h.2 hc

theorem printable_renderFields : ∀ {fields : List (Option String × Value)} {c : Char}, SoundFields fields →
    c ∈ renderFields fields → 32 ≤ c.toNat
  | [(k, v)], c, h, hc => by
    simp only [renderFields, List.mem_append, List.mem_singleton] at hc
    rcases hc with (hc | rfl) | hc
    · exact printable_quote? hc
    · decide
    · exact printable_render h.2.1 hc
  | (k, v) :: f :: r, c, h, hc => by
    simp only [renderFields, List.mem_append, List.mem_singleton] at hc
    rcases hc with (((hc | rfl) | hc) | rfl) | hc
    · exact printable_quote? hc
    · decide
    · exact printable_render h.2.1 hc
    · decide
    · exact printable_renderFields h.2.2 hc

end

end Cadence.Json
