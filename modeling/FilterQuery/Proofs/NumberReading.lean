import FilterQuery.Number.Reader
import FilterQuery.Proofs.Rounding
import FilterQuery.Value.Display
import Mathlib.Data.List.TakeWhile

namespace FilterQuery

namespace Text

theorem dropWhile_of_none {p : CodePoint → Bool} {t : Text} (h : ∀ c ∈ t, p c = false) : t.dropWhile p = t := by
  cases t with
  | nil => rfl
  | cons c t => rw [List.dropWhile_cons, h c List.mem_cons_self, if_neg Bool.false_ne_true]

/-- Blanks around a text go, if there are none in it. -/
theorem trim_between {blank : CodePoint → Bool} {before t after : Text} (hb : ∀ c ∈ before, blank c = true)
    (ht : ∀ c ∈ t, blank c = false) (ha : ∀ c ∈ after, blank c = true) : trim blank (before ++ t ++ after) = t := by
  cases t with
  | nil =>
    have hn : ∀ c ∈ before ++ [] ++ after, blank c = true := by
      rw [List.append_nil]
      exact List.forall_mem_append.mpr ⟨hb, ha⟩
    rw [trim, List.dropWhile_eq_nil_iff.mpr hn]
    rfl
  | cons c t =>
    have hfront : (before ++ (c :: t) ++ after).dropWhile blank = c :: t ++ after := by
      rw [List.append_assoc, List.dropWhile_append_of_pos hb, List.cons_append, List.dropWhile_cons,
        ht c List.mem_cons_self, if_neg Bool.false_ne_true]
    have hback : (c :: t ++ after).reverse.dropWhile blank = (c :: t).reverse := by
      rw [List.reverse_append, List.dropWhile_append_of_pos fun d hd => ha d (List.mem_reverse.mp hd)]
      exact dropWhile_of_none fun d hd => ht d (List.mem_reverse.mp hd)
    rw [trim, hfront, hback, List.reverse_reverse]

theorem trim_of_none {blank : CodePoint → Bool} {t : Text} (ht : ∀ c ∈ t, blank c = false) : trim blank t = t := by
  have h := trim_between (List.forall_mem_nil _) ht (List.forall_mem_nil _)
  rwa [List.nil_append, List.append_nil] at h

theorem ofInt_eq (n : Int) : ofInt n = Numeral.sign (n < 0) ++ (Digits.ofNat n.natAbs).toText := by
  simp only [ofInt, Numeral.ofInt, Numeral.toText, Numeral.fractionText, Numeral.exponentText, List.append_nil]

end Text

namespace Number

open Numeral

theorem signed_natAbs (n : Int) : signed (n < 0) n.natAbs = n := by
  unfold signed
  split
  · rename_i h
    simp only [decide_eq_true_eq] at h
    simp only [Int.ofNat_eq_natCast]
    omega
  · rename_i h
    simp only [decide_eq_true_eq] at h
    simp only [Int.ofNat_eq_natCast]
    omega

theorem natAbs_signed (negative : Bool) (n : Nat) : (signed negative n).natAbs = n := by
  cases negative with
  | true => exact Int.natAbs_neg n
  | false => rfl

theorem signed_lt_zero {negative : Bool} {n : Nat} (h : signed negative n ≠ 0) :
    (signed negative n < 0 : Bool) = negative := by
  cases negative with
  | true =>
    change -(n : Int) ≠ 0 at h
    have hn : -(n : Int) < 0 := by omega
    exact decide_eq_true hn
  | false =>
    have hn : ¬(n : Int) < 0 := by omega
    exact decide_eq_false hn

/-- A code point that the readers of numbers take as it is. -/
structure IsTaken (c : CodePoint) : Prop where
  notBlank : c.isWhiteSpace = false
  notUnderscore : c ≠ CodePoint.ofChar '_'
  digit : ∀ d, c.decimalValue? = some d → c = CodePoint.ofDigit d

theorem isTaken_of_mem {c : CodePoint} {n : Numeral} (h : c ∈ n.toText wireWords) : IsTaken c := by
  have hdigits : ∀ d, (CodePoint.ofDigit d).isWhiteSpace = false ∧ CodePoint.ofDigit d ≠ CodePoint.ofChar '_' := by
    decide
  have hmarks : ∀ c ∈ marks, c.isWhiteSpace = false ∧ c ≠ CodePoint.ofChar '_' ∧ c.decimalValue? = none := by
    decide
  rcases digit_or_mark h with ⟨d, rfl⟩ | h
  · refine ⟨(hdigits d).1, (hdigits d).2, ?_⟩
    intro e he
    rw [CodePoint.decimalValue?_ofDigit] at he
    rw [Option.some.inj he]
  · obtain ⟨hb, hu, hd⟩ := hmarks c h
    refine ⟨hb, hu, ?_⟩
    intro d h
    rw [hd] at h
    contradiction

theorem plain_of_taken {t : Text} (h : ∀ c ∈ t, IsTaken c) : plain t = t := by
  rw [plain, List.map_congr_left (g := id), List.map_id]
  · exact Text.trim_of_none fun c hc => (h c hc).notBlank
  · intro c hc
    cases hd : c.decimalValue? with
    | some d => exact ((h c hc).digit d hd).symm
    | none => rfl

theorem dropUnderscores?_of_not_mem {t : Text} (h : CodePoint.ofChar '_' ∉ t) (afterDigit : Bool) :
    dropUnderscores? afterDigit t = some t := by
  induction t generalizing afterDigit with
  | nil => rfl
  | cons c t ih =>
    simp only [List.mem_cons, not_or] at h
    rw [dropUnderscores?, if_neg (Ne.symm h.1), ih h.2]
    rfl

theorem dropUnderscores?_plain (n : Numeral) :
    dropUnderscores? false (plain (n.toText wireWords)) = some (n.toText wireWords) := by
  rw [plain_of_taken fun c hc => isTaken_of_mem hc]
  exact dropUnderscores?_of_not_mem (fun h => (isTaken_of_mem h).notUnderscore rfl) false

theorem splitSign_sign (negative : Bool) (d : Digits) (rest : Text) :
    splitSign (sign negative ++ (d.toText ++ rest)) = (negative, d.toText ++ rest) := by
  have hminus : CodePoint.ofDigit d.first ≠ CodePoint.ofChar '-' := Digits.ofDigit_ne (by decide)
  have hplus : CodePoint.ofDigit d.first ≠ CodePoint.ofChar '+' := Digits.ofDigit_ne (by decide)
  cases negative with
  | true => rfl
  | false =>
    change splitSign (CodePoint.ofDigit d.first :: (d.rest.map CodePoint.ofDigit ++ rest)) = _
    rw [splitSign, if_neg hminus, if_neg hplus]
    rfl

/-- Whole numbers are read back, if they are not too long to be read. -/
theorem readInt?_ofInt {n : Int} (h : (Value.int n).isPrintable) : readInt? (Text.ofInt n) = some n := by
  have hl : (Digits.ofNat n.natAbs).toList.length ≤ digitLimit := of_decide_eq_true h
  have hv : (Digits.ofNat n.natAbs).toNat = n.natAbs := (Digits.isDecimalOf_ofNat _).1
  have hs := splitSign_sign (n < 0) (Digits.ofNat n.natAbs) []
  rw [List.append_nil] at hs
  rw [readInt?, Text.ofInt, dropUnderscores?_plain, Option.bind_some]
  change wholeNumber? (Text.ofInt n) = _
  rw [Text.ofInt_eq, wholeNumber?, hs]
  simp only [Digits.read?_digits, if_pos hl, hv, signed_natAbs]

/-- The digits after the point of a numeral. -/
def fractionDigits : Option Digits → List (Fin 10)
  | none => []
  | some d => d.toList

/-- The power of ten of a numeral. -/
def exponentValue : Option Exponent → Int
  | none => 0
  | some e => signed e.negative e.digits.toNat

theorem powerOfTen?_exponentText (exponent : Option Exponent) :
    powerOfTen? (exponentText exponent) = some (exponentValue exponent) := by
  cases exponent with
  | none => rfl
  | some e =>
    obtain ⟨negative, d⟩ := e
    have hs : splitSign ((if negative then CodePoint.ofChar '-' else CodePoint.ofChar '+') :: d.toText) =
        (negative, d.toText) := by
      cases negative <;> rfl
    have he : exponentText (some ⟨negative, d⟩) =
        CodePoint.ofChar 'e' :: (if negative then CodePoint.ofChar '-' else CodePoint.ofChar '+') :: d.toText := by
      cases negative <;> rfl
    rw [he, powerOfTen?, if_pos (.inl rfl), hs]
    simp only [Digits.read?_digits, exponentValue]

theorem unsignedFloat?_decimal (negative : Bool) (whole : Digits) (fraction : Option Digits)
    (exponent : Option Exponent) :
    unsignedFloat? negative (whole.toText ++ (fractionText fraction ++ exponentText exponent)) =
      some (Binary64.ofDecimal negative (Digits.valueOf (whole.toList ++ fractionDigits fraction))
        (exponentValue exponent - (fractionDigits fraction).length)) := by
  have hf : (fractionText fraction ++ exponentText exponent).head?.all fun c => c.digit?.isNone := by
    cases fraction <;> cases exponent <;> rfl
  have he : (exponentText exponent).head?.all fun c => c.digit?.isNone := by
    cases exponent <;> rfl
  have hw := Digits.span_append whole.toList hf
  have hne : whole.toList.isEmpty = false := rfl
  change Digits.span (whole.toText ++ _) = _ at hw
  -- Without a fraction no point follows: the power of ten comes next, or the end.
  cases fraction with
  | none =>
    have ha : Text.after? '.' (fractionText none ++ exponentText exponent) = none := by
      cases exponent <;> rfl
    have hp : powerOfTen? (fractionText none ++ exponentText exponent) = some (exponentValue exponent) :=
      powerOfTen?_exponentText exponent
    simp only [unsignedFloat?, hw, ha, hne, hp, Bool.false_and, Bool.false_eq_true, if_false,
      Option.bind_eq_bind, Option.bind_some, Option.pure_def, fractionDigits]
  | some d =>
    have ha : Text.after? '.' (fractionText (some d) ++ exponentText exponent) =
        some (d.toText ++ exponentText exponent) := rfl
    have hr : Digits.span (d.toText ++ exponentText exponent) = (d.toList, exponentText exponent) :=
      Digits.span_append d.toList he
    simp only [unsignedFloat?, hw, ha, hr, hne, powerOfTen?_exponentText, Bool.false_and, Bool.false_eq_true,
      if_false, Option.bind_eq_bind, Option.bind_some, Option.pure_def, fractionDigits]

/-- No decimal is a word. -/
theorem toAsciiLower_ne (d : Digits) (rest : Text) {c : CodePoint} (hc : c.digit? = none) (t : Text) :
    Text.toAsciiLower (d.toText ++ rest) ≠ c :: t := by
  have hl : ∀ d : Fin 10, (CodePoint.ofDigit d).toAsciiLower = CodePoint.ofDigit d := by decide
  intro h
  have hd : (CodePoint.ofDigit d.first).toAsciiLower = c := (List.cons.inj h).1
  rw [hl] at hd
  exact Digits.ofDigit_ne hc hd

/-- A decimal is read as the float that it is rounded to. -/
theorem readFloat?_decimal (negative : Bool) (whole : Digits) (fraction : Option Digits)
    (exponent : Option Exponent) :
    readFloat? ((decimal negative whole fraction exponent).toText wireWords) =
      some (Binary64.ofDecimal negative (Digits.valueOf (whole.toList ++ fractionDigits fraction))
        (exponentValue exponent - (fractionDigits fraction).length)) := by
  have hw (c : CodePoint) (hc : c.digit? = none) (t : Text) :
      Text.toAsciiLower (whole.toText ++ (fractionText fraction ++ exponentText exponent)) ≠ c :: t :=
    toAsciiLower_ne whole _ hc t
  have hinf := hw 'i' (by decide)
  have hwords : ¬(_ = Text.ofString "inf" ∨ _ = Text.ofString "infinity") := not_or.mpr ⟨hinf _, hinf _⟩
  have hnan : _ ≠ Text.ofString "nan" := hw 'n' (by decide) _
  rw [readFloat?, dropUnderscores?_plain, Option.bind_some, float?, toText, List.append_assoc, List.append_assoc,
    splitSign_sign]
  dsimp only
  rw [if_neg hwords, if_neg hnan, unsignedFloat?_decimal]

theorem readFloat?_nan : readFloat? (nan.toText wireWords) = some .nan := rfl

theorem readFloat?_infinite (negative : Bool) :
    readFloat? ((infinite negative).toText wireWords) = some (.infinite negative) := by
  cases negative <;> rfl

end Number

end FilterQuery
