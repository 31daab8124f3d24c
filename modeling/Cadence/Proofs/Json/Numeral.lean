import Cadence.Decimal.Shortest
import Cadence.Json.Reader
import Mathlib.Tactic.IntervalCases

/-!
# Number literals

The grammar of number literals (`IsNumber`). What follows such a literal is read as it stands, if nothing of it goes on
with the number (`readNumber_append`). Whole numbers and shortest decimals are written as such literals
(`isNumber_toString`, `isNumber_shortest`), and a whole number is read back (`digitsValue_toString`).
-/

namespace Cadence

namespace Json

/-- Digits, of which there is at least one. -/
structure IsDigits (ds : List Char) : Prop where
  ne : ds ≠ []
  digit : ∀ d ∈ ds, d.isDigit = true

/-- The sign of a number. -/
inductive IsSign : List Char → Prop where
  | none : IsSign []
  | minus : IsSign ['-']

/-- The whole part of a number: no zero in front of further digits. -/
inductive IsWhole : List Char → Prop where
  | zero : IsWhole ['0']
  | digits {d ds} : d ≠ '0' → IsDigits (d :: ds) → IsWhole (d :: ds)

/-- The fraction of a number, if there is one. -/
inductive IsFraction : List Char → Prop where
  | none : IsFraction []
  | point {ds} : IsDigits ds → IsFraction ('.' :: ds)

/-- The exponent of a number, if there is one. -/
inductive IsExponent : List Char → Prop where
  | none : IsExponent []
  | unsigned {ds} : IsDigits ds → IsExponent ('e' :: ds)
  | plus {ds} : IsDigits ds → IsExponent ('e' :: '+' :: ds)
  | minus {ds} : IsDigits ds → IsExponent ('e' :: '-' :: ds)

/-- A number literal. -/
inductive IsNumber : List Char → Prop where
  | mk {sign whole fraction exponent} :
    IsSign sign → IsWhole whole → IsFraction fraction → IsExponent exponent →
    IsNumber (sign ++ whole ++ fraction ++ exponent)

/-- Whether a text begins with a character of a kind. -/
def beginsWith (p : Char → Bool) : List Char → Bool
  | [] => false
  | c :: _ => p c

/-- Whether a character would go on with a number. -/
def continuesNumber (c : Char) : Bool := c.isDigit || c == '.' || c == 'e' || c == 'E'

lemma readDigits_append {ds rest : List Char} (h : IsDigits ds) (hrest : beginsWith Char.isDigit rest = false) :
    readDigits (ds ++ rest) = some (ds, rest) := by
  have htake : (ds ++ rest).takeWhile Char.isDigit = ds := by
    rw [List.takeWhile_append_of_pos h.digit]
    cases rest with
    | nil => simp
    | cons c r => rw [List.takeWhile_cons_of_neg (by simpa [beginsWith] using hrest), List.append_nil]
  have hdrop : (ds ++ rest).dropWhile Char.isDigit = rest := by
    rw [List.dropWhile_append_of_pos h.digit]
    cases rest with
    | nil => rfl
    | cons c r => rw [List.dropWhile_cons_of_neg (by simpa [beginsWith] using hrest)]
  unfold readDigits
  rw [htake, hdrop]
  cases ds with
  | nil => exact absurd rfl h.ne
  | cons d ds => rfl

lemma readWhole_append {whole rest : List Char} (h : IsWhole whole) (hrest : beginsWith Char.isDigit rest = false) :
    readWhole (whole ++ rest) = some (whole, rest) := by
  cases h with
  | zero => rfl
  | @digits d ds hd hds =>
    unfold readWhole
    split
    · next r hr =>
      cases hr
      exact absurd rfl hd
    · exact readDigits_append hds hrest

lemma readFraction_append {fraction rest : List Char} (h : IsFraction fraction)
    (hdigit : beginsWith Char.isDigit rest = false) (hpoint : beginsWith (· == '.') rest = false) :
    readFraction (fraction ++ rest) = some (fraction, rest) := by
  cases h with
  | none =>
    unfold readFraction
    split
    · next hr =>
      rw [List.nil_append] at hr
      rw [hr] at hpoint
      cases hpoint
    · rfl
  | @point ds hds =>
    show (readDigits (ds ++ rest)).map _ = _
    rw [readDigits_append hds hdigit]
    rfl

lemma readExponent_append {exponent rest : List Char} (h : IsExponent exponent)
    (hrest : beginsWith continuesNumber rest = false) : readExponent (exponent ++ rest) = some (exponent, rest) := by
  have hdigit : beginsWith Char.isDigit rest = false := by
    cases rest with
    | nil => rfl
    | cons c r =>
      simp only [beginsWith, continuesNumber, Bool.or_eq_false_iff] at hrest ⊢
      exact hrest.1.1.1
  cases h with
  | none =>
    cases rest with
    | nil => rfl
    | cons c r =>
      simp only [beginsWith, continuesNumber, Bool.or_eq_false_iff, beq_eq_false_iff_ne] at hrest
      simp [readExponent, hrest.1.2, hrest.2]
  | @unsigned ds hds =>
    have hsome : (readDigits (ds ++ rest)).map (fun found => ('e' :: found.1, found.2)) = some ('e' :: ds, rest) := by
      rw [readDigits_append hds hdigit]
      rfl
    cases ds with
    | nil => exact absurd rfl hds.ne
    | cons d ds =>
      have hd : d.isDigit = true := hds.digit d List.mem_cons_self
      have hplus : d ≠ '+' := by rintro rfl; cases hd
      have hminus : d ≠ '-' := by rintro rfl; cases hd
      simp only [List.cons_append, readExponent, decide_true, Bool.true_or, if_true] at hsome ⊢
      split
      · next hr => cases hr; exact absurd rfl hplus
      · next hr => cases hr; exact absurd rfl hminus
      · exact hsome
  | @plus ds hds =>
    show (readDigits (ds ++ rest)).map _ = _
    rw [readDigits_append hds hdigit]
    rfl
  | @minus ds hds =>
    show (readDigits (ds ++ rest)).map _ = _
    rw [readDigits_append hds hdigit]
    rfl

lemma IsExponent.beginsWith {p : Char → Bool} {exponent rest : List Char} (h : IsExponent exponent) (he : p 'e' = false)
    (hrest : Json.beginsWith p rest = false) : Json.beginsWith p (exponent ++ rest) = false := by
  cases h with
  | none => exact hrest
  | _ => exact he

lemma IsFraction.beginsWith {p : Char → Bool} {fraction rest : List Char} (h : IsFraction fraction)
    (hp : p '.' = false) (hrest : Json.beginsWith p rest = false) : Json.beginsWith p (fraction ++ rest) = false := by
  cases h with
  | none => exact hrest
  | _ => exact hp

/-- A number literal is read as it stands before anything that does not go on with it. -/
theorem readNumber_append {literal rest : List Char} (h : IsNumber literal)
    (hrest : beginsWith continuesNumber rest = false) :
    readNumber (literal ++ rest) = some (String.ofList literal, rest) := by
  obtain @⟨sign, whole, fraction, exponent, hsign, hwhole, hfraction, hexponent⟩ := h
  have hkind : ∀ p : Char → Bool, (∀ c, p c = true → continuesNumber c = true) → beginsWith p rest = false := by
    intro p hp
    cases rest with
    | nil => rfl
    | cons c r =>
      apply Bool.eq_false_iff.mpr
      intro hc
      have hcontinues : continuesNumber c = false := hrest
      rw [hp c hc] at hcontinues
      cases hcontinues
  have hdigit : beginsWith Char.isDigit (exponent ++ rest) = false :=
    hexponent.beginsWith rfl (hkind _ fun c hc => by simp [continuesNumber, hc])
  have hpoint : beginsWith (· == '.') (exponent ++ rest) = false :=
    hexponent.beginsWith rfl (hkind _ fun c hc => by simp [continuesNumber, beq_iff_eq.mp hc])
  have hwhole' := readWhole_append hwhole (hfraction.beginsWith rfl hdigit)
  have hfraction' := readFraction_append hfraction hdigit hpoint
  have hexponent' := readExponent_append hexponent hrest
  have hassoc : sign ++ whole ++ fraction ++ exponent ++ rest
      = sign ++ (whole ++ (fraction ++ (exponent ++ rest))) := by simp only [List.append_assoc]
  rw [hassoc]
  cases hsign with
  | minus =>
    simp only [readNumber, List.cons_append, List.nil_append, hwhole', hfraction', hexponent', Option.bind_eq_bind,
      Option.bind_some, Option.pure_def]
  | none =>
    have hdigit : ∀ r, whole ++ (fraction ++ (exponent ++ rest)) ≠ '-' :: r := by
      intro r hr
      cases hwhole with
      | zero => cases hr
      | digits _ hds =>
        cases hr
        cases hds.digit '-' List.mem_cons_self
    unfold readNumber
    split
    · next hr =>
      split at hr
      · next hminus => exact absurd hminus (hdigit _)
      · cases hr
        simp only [List.nil_append, hwhole', hfraction', hexponent', Option.bind_eq_bind, Option.bind_some,
          Option.pure_def]

/-- A number literal begins with a sign or a digit. -/
lemma IsNumber.cons {literal : List Char} (h : IsNumber literal) :
    ∃ c r, literal = c :: r ∧ (c = '-' ∨ c.isDigit = true) := by
  obtain @⟨sign, whole, fraction, exponent, hsign, hwhole, _, _⟩ := h
  cases hsign with
  | minus => exact ⟨'-', _, rfl, .inl rfl⟩
  | none =>
    cases hwhole with
    | zero => exact ⟨'0', _, rfl, .inr rfl⟩
    | @digits d ds _ hds => exact ⟨d, _, rfl, .inr (hds.digit d List.mem_cons_self)⟩

lemma IsDigits.printable {ds : List Char} (h : IsDigits ds) {c : Char} (hc : c ∈ ds) : 32 ≤ c.toNat := by
  have hdigit := h.digit c hc
  simp only [Char.isDigit, Bool.and_eq_true, decide_eq_true_eq] at hdigit
  exact Nat.le_trans (by decide) (UInt32.le_iff_toNat_le.mp hdigit.1)

/-- There are no control characters in a number literal. -/
lemma IsNumber.printable {literal : List Char} (h : IsNumber literal) {c : Char} (hc : c ∈ literal) : 32 ≤ c.toNat := by
  obtain @⟨sign, whole, fraction, exponent, hsign, hwhole, hfraction, hexponent⟩ := h
  simp only [List.mem_append] at hc
  rcases hc with ((hc | hc) | hc) | hc
  · cases hsign with
    | none => cases hc
    | minus => rw [List.mem_singleton.mp hc]; decide
  · cases hwhole with
    | zero => rw [List.mem_singleton.mp hc]; decide
    | digits _ hds => exact hds.printable hc
  · cases hfraction with
    | none => cases hc
    | point hds =>
      rcases List.mem_cons.mp hc with rfl | hc
      · decide
      · exact hds.printable hc
  · cases hexponent with
    | none => cases hc
    | unsigned hds =>
      rcases List.mem_cons.mp hc with rfl | hc
      · decide
      · exact hds.printable hc
    | plus hds | minus hds =>
      rcases List.mem_cons.mp hc with rfl | hc
      · decide
      · rcases List.mem_cons.mp hc with rfl | hc
        · decide
        · exact hds.printable hc

lemma toList_toString (n : Nat) : (toString n).toList = Nat.toDigits 10 n := by
  rw [Nat.toString_eq_ofList_toDigits, String.toList_ofList]

lemma isDigits_singleton {d : Char} (h : d.isDigit = true) : IsDigits [d] := ⟨by simp, by simpa using h⟩

lemma isDigits_toDigits (n : Nat) : IsDigits (Nat.toDigits 10 n) where
  ne := Nat.toDigits_ne_nil
  digit _ hd := Nat.isDigit_of_mem_toDigits (by decide) (by decide) hd

/-- The digits of a positive number do not begin with a zero. -/
lemma head_toDigits {n : Nat} (hn : n ≠ 0) : ∃ d ds, Nat.toDigits 10 n = d :: ds ∧ d ≠ '0' := by
  induction n using Nat.strongRecOn with
  | ind n ih =>
    by_cases hlt : n < 10
    · refine ⟨n.digitChar, [], Nat.toDigits_of_lt_base hlt, ?_⟩
      interval_cases n
      all_goals first | exact absurd rfl hn | decide
    · obtain ⟨d, ds, hdigits, hd⟩ := ih (n / 10) (by omega) (by omega)
      refine ⟨d, ds ++ [(n % 10).digitChar], ?_, hd⟩
      rw [Nat.toDigits_eq_if (by decide), if_neg hlt, hdigits, List.cons_append]

/-- The digits of a number are the whole part of one. -/
lemma isWhole_toDigits (n : Nat) : IsWhole (Nat.toDigits 10 n) := by
  by_cases hn : n = 0
  · subst hn
    exact .zero
  · obtain ⟨d, ds, hdigits, hd⟩ := head_toDigits hn
    have hall := isDigits_toDigits n
    rw [hdigits] at hall ⊢
    exact .digits hd hall

/-- A whole number is written as a number literal. -/
theorem isNumber_toString (n : Nat) : IsNumber (toString n).toList := by
  have h := IsNumber.mk .none (isWhole_toDigits n) .none .none
  rw [toList_toString]
  simpa using h

/-- The digits of a number have its value. -/
theorem digitsValue_toString (n : Nat) : Quantity.digitsValue (toString n).toList = n := by
  rw [toList_toString]
  have h := Nat.ofDigitChars_ten_toDigits (n := n)
  rw [Nat.ofDigitChars_eq_foldl] at h
  unfold Quantity.digitsValue
  simpa [Nat.mul_comm] using h

/-- A number literal without a sign. -/
inductive IsMagnitude : List Char → Prop where
  | mk {whole fraction exponent} :
    IsWhole whole → IsFraction fraction → IsExponent exponent → IsMagnitude (whole ++ fraction ++ exponent)

lemma IsMagnitude.signed {sign magnitude : List Char} (h : IsMagnitude magnitude) (hsign : IsSign sign) :
    IsNumber (sign ++ magnitude) := by
  obtain ⟨hwhole, hfraction, hexponent⟩ := h
  have hnumber := IsNumber.mk hsign hwhole hfraction hexponent
  simpa only [List.append_assoc] using hnumber

end Json

namespace Decimal
open Json

lemma isFraction_zero : IsFraction ".0".toList := .point (isDigits_singleton rfl)

/-- Positional notation is a number literal. -/
lemma isMagnitude_positional (s : Scientific) : IsMagnitude s.positional.toList := by
  unfold Scientific.positional
  split
  · have h := IsMagnitude.mk (isWhole_toDigits (s.digits * Nat.pow 10 s.exponent.toNat)) isFraction_zero .none
    simpa only [String.toList_append, toList_toString, List.append_nil] using h
  · dsimp only
    generalize (-s.exponent).toNat = places
    have hdigits : IsDigits (List.replicate (places - (toString (s.digits % Nat.pow 10 places)).length) '0'
        ++ Nat.toDigits 10 (s.digits % Nat.pow 10 places)) := by
      refine ⟨by simp, fun d hd => ?_⟩
      rcases List.mem_append.mp hd with hd | hd
      · rw [List.eq_of_mem_replicate hd]
        rfl
      · exact (isDigits_toDigits _).digit d hd
    have h := IsMagnitude.mk (isWhole_toDigits (s.digits / Nat.pow 10 places)) (.point hdigits) .none
    simpa [toList_toString] using h

/-- The exponent of scientific notation, with a plus sign or without. -/
lemma isExponent_lead (plus : Bool) (lead : Int) :
    IsExponent ("e" ++ (if 0 ≤ lead && plus then "+" else "") ++ toString lead).toList := by
  have htext : ∀ sign, ("e" ++ sign ++ toString lead).toList = 'e' :: (sign.toList ++ (toString lead).toList) := by
    intro sign
    rw [String.toList_append, String.toList_append, List.append_assoc]
    rfl
  rw [htext]
  cases lead with
  | ofNat n =>
    have hn : (toString (Int.ofNat n)).toList = Nat.toDigits 10 n := toList_toString n
    rw [hn]
    cases plus with
    | true =>
      rw [if_pos (by simp)]
      exact .plus (isDigits_toDigits n)
    | false => exact .unsigned (isDigits_toDigits n)
  | negSucc n =>
    have hn : (toString (Int.negSucc n)).toList = '-' :: Nat.toDigits 10 (n + 1) := by
      rw [← toList_toString]
      show ("-" ++ toString (n + 1)).toList = _
      rw [String.toList_append]
      rfl
    rw [hn]
    exact .minus (isDigits_toDigits (n + 1))

/-- Scientific notation is a number literal. -/
lemma isMagnitude_exponential (plus : Bool) (s : Scientific) : IsMagnitude (s.exponential plus).toList := by
  have hdigits := isDigits_toDigits s.digits
  have hexponent := isExponent_lead plus (s.exponent + ((toString s.digits).length - 1 : Nat))
  have hwhole : ∀ d, d.isDigit = true → IsWhole [d] := by
    intro d hd
    by_cases h0 : d = '0'
    · rw [h0]
      exact .zero
    · exact .digits h0 (isDigits_singleton hd)
  rw [String.append_assoc] at hexponent
  unfold Scientific.exponential
  dsimp only
  rw [String.append_assoc, String.append_assoc, String.toList_append]
  rw [toList_toString]
  cases hd : Nat.toDigits 10 s.digits with
  | nil => exact absurd hd hdigits.ne
  | cons d ds =>
    rw [hd] at hdigits
    have hfirst := hwhole d (hdigits.digit d List.mem_cons_self)
    cases ds with
    | nil =>
      have h := IsMagnitude.mk hfirst .none hexponent
      simpa using h
    | cons d' ds =>
      have hfraction : IsFraction ('.' :: d' :: ds) :=
        .point ⟨by simp, fun c hc => hdigits.digit c (List.mem_cons_of_mem _ hc)⟩
      have h := IsMagnitude.mk hfirst hfraction hexponent
      simpa using h

/-- A number in any layout is a number literal. -/
lemma isMagnitude_render (l : Layout) (s : Scientific) : IsMagnitude (s.render l).toList := by
  unfold Scientific.render
  dsimp only
  split
  · exact IsMagnitude.mk .zero isFraction_zero .none
  · split
    · exact isMagnitude_positional s
    · exact isMagnitude_exponential l.plus s

/-- The shortest text of a double is a number literal. -/
theorem isNumber_shortest {l : Layout} {x : Float} {literal : String} (h : shortest? l x = some literal) :
    IsNumber literal.toList := by
  obtain ⟨b, _, rfl⟩ := Option.map_eq_some_iff.mp h
  have hmagnitude := isMagnitude_render l b.shortest
  rw [String.toList_append]
  cases b.negative with
  | true => exact hmagnitude.signed .minus
  | false => exact hmagnitude.signed .none

end Decimal
end Cadence
