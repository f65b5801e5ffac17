import FilterQuery.Number.Numeral
import FilterQuery.Proofs.Percent
import Mathlib.Algebra.Order.Ring.Int
import Mathlib.Data.List.Induction

namespace FilterQuery

namespace CodePoint

theorem eq_ofDigit {c : CodePoint} {d : Fin 10} (h : c.digit? = some d) : c = ofDigit d := by
  obtain ⟨n, hn⟩ := c
  simp only [digit?] at h
  split at h
  · cases h
    simp only [ofDigit, CodePoint.mk.injEq]
    omega
  · contradiction

theorem isUnreserved_ofDigit (d : Fin 10) : (ofDigit d).isUnreserved := by
  revert d
  decide

end CodePoint

namespace Digits

theorem span_sound (t : Text) : (span t).1.map CodePoint.ofDigit ++ (span t).2 = t := by
  fun_induction span t with
  | case1 => rfl
  | case2 c rest d hd ih =>
    rw [List.map_cons, List.cons_append, ih, CodePoint.eq_ofDigit hd]
  | case3 => rfl

theorem read?_sound {t rest : Text} {d : Digits} (h : read? t = some (d, rest)) :
    t = d.toText ++ rest := by
  have hs := span_sound t
  rw [read?] at h
  split at h
  · contradiction
  · rename_i x ds r he
    cases h
    rw [he] at hs
    exact hs.symm

theorem read?_digits (d : Digits) : read? d.toText = some (d, []) := by
  have h := @read?_toText d [] rfl
  rwa [List.append_nil] at h

theorem ofDigit_ne {c : CodePoint} {d : Fin 10} (h : c.digit? = none) : CodePoint.ofDigit d ≠ c := by
  rintro rfl
  rw [CodePoint.digit?_ofDigit] at h
  contradiction

theorem exists_of_mem {c : CodePoint} {d : Digits} (h : c ∈ d.toText) : ∃ x, c = CodePoint.ofDigit x := by
  obtain ⟨x, _, rfl⟩ := List.mem_map.mp h
  exact ⟨x, rfl⟩

/-- The digits that a number is counted in: they spell it, and no zero stands in front without need. -/
def IsDecimalOf (d : Digits) (n : Nat) : Prop := d.toNat = n ∧ (d.first = 0 → d.rest = [])

theorem valueOf_concat (ds : List (Fin 10)) (d : Fin 10) : valueOf (ds ++ [d]) = valueOf ds * 10 + d.val := by
  rw [valueOf, List.foldl_append]
  rfl

theorem prepend_digit {n : Nat} (h : n < 10) (found : List (Fin 10)) :
    prepend n found = ⟨n, h⟩ :: found := by
  rw [prepend, dif_pos h]

theorem prepend_step {n : Nat} (h : ¬n < 10) (found : List (Fin 10)) :
    prepend n found = prepend (n / 10) (⟨n % 10, Nat.mod_lt n (by decide)⟩ :: found) := by
  rw [prepend, dif_neg h]

theorem prepend_append (n : Nat) (found : List (Fin 10)) : prepend n found = prepend n [] ++ found := by
  induction n using Nat.strongRecOn generalizing found with
  | _ n ih =>
    by_cases h : n < 10
    · rw [prepend_digit h, prepend_digit h]
      rfl
    · have hlt : n / 10 < n := by omega
      rw [prepend_step h, prepend_step h, ih _ hlt (_ :: found), ih _ hlt [_], List.append_assoc]
      rfl

theorem valueOf_prepend (n : Nat) : valueOf (prepend n []) = n := by
  induction n using Nat.strongRecOn with
  | _ n ih =>
    by_cases h : n < 10
    · rw [prepend_digit h]
      simp [valueOf]
    · rw [prepend_step h, prepend_append, valueOf_concat, ih (n / 10) (by omega)]
      exact Nat.div_add_mod' n 10

/-- The digits of a number begin with one that counts, unless they are a single one. -/
theorem prepend_cons (n : Nat) : ∃ d ds, prepend n [] = d :: ds ∧ (d = 0 → ds = []) := by
  induction n using Nat.strongRecOn with
  | _ n ih =>
    by_cases h : n < 10
    · exact ⟨_, [], prepend_digit h [], fun _ => rfl⟩
    · obtain ⟨d, ds, hp, hd⟩ := ih (n / 10) (by omega)
      have hv := valueOf_prepend (n / 10)
      rw [hp] at hv
      rw [prepend_step h, prepend_append, hp]
      refine ⟨d, _, rfl, ?_⟩
      intro h0
      rw [h0, hd h0] at hv
      simp only [valueOf, List.foldl_cons, List.foldl_nil, Fin.val_zero] at hv
      omega

theorem isDecimalOf_ofNat (n : Nat) : (ofNat n).IsDecimalOf n := by
  obtain ⟨d, ds, hp, hd⟩ := prepend_cons n
  have hv := valueOf_prepend n
  rw [hp] at hv
  rw [ofNat, hp]
  exact ⟨hv, hd⟩

theorem valueOf_lt (ds : List (Fin 10)) : valueOf ds < 10 ^ ds.length := by
  induction ds using List.reverseRecOn with
  | nil => decide
  | append_singleton ds d ih =>
    rw [valueOf_concat, List.length_append, List.length_singleton, Nat.pow_succ]
    omega

theorem length_prepend_le {n k : Nat} (h : n < 10 ^ (k + 1)) : (prepend n []).length ≤ k + 1 := by
  induction k generalizing n with
  | zero => exact Nat.le_of_eq (by rw [prepend_digit h, List.length_singleton])
  | succ k ih =>
    by_cases hn : n < 10
    · rw [prepend_digit hn, List.length_singleton]
      omega
    · rw [Nat.pow_succ] at h
      have := ih (Nat.div_lt_of_lt_mul (by omega : n < 10 * 10 ^ (k + 1)))
      rw [prepend_step hn, prepend_append, List.length_append, List.length_singleton]
      omega

/-- A number has no more digits than any that spell it. -/
theorem count_valueOf_le {ds : List (Fin 10)} (h : ds ≠ []) : count (valueOf ds) ≤ ds.length := by
  obtain ⟨d, ds, rfl⟩ := List.exists_cons_of_ne_nil h
  obtain ⟨e, es, hp, -⟩ := prepend_cons (valueOf (d :: ds))
  have hl := length_prepend_le (valueOf_lt (d :: ds))
  rw [hp] at hl
  rw [count, ofNat, hp]
  exact hl

end Digits

namespace Numeral

/-- The code points of numerals besides digits. -/
def marks : Text := "+-.eINafinty"

theorem digit_or_mark {c : CodePoint} {n : Numeral} (h : c ∈ n.toText wireWords) :
    (∃ d, c = CodePoint.ofDigit d) ∨ c ∈ marks := by
  have hsign : ∀ negative, ∀ c ∈ sign negative, c ∈ marks := by
    intro negative
    cases negative <;> decide
  cases n with
  | nan => exact .inr ((by decide : ∀ c ∈ wireWords.nan, c ∈ marks) c h)
  | infinite negative =>
    rcases List.mem_append.mp h with h | h
    · exact .inr (hsign negative c h)
    · exact .inr ((by decide : ∀ c ∈ wireWords.infinity, c ∈ marks) c h)
  | decimal negative whole fraction exponent =>
    simp only [toText, List.mem_append] at h
    rcases h with ((h | h) | h) | h
    · exact .inr (hsign negative c h)
    · exact .inl (Digits.exists_of_mem h)
    · cases fraction with
      | none => contradiction
      | some ds =>
        rcases List.mem_cons.mp h with rfl | h
        · exact .inr (by decide)
        · exact .inl (Digits.exists_of_mem h)
    · cases exponent with
      | none => contradiction
      | some e =>
        rcases List.mem_cons.mp h with rfl | h
        · exact .inr (by decide)
        rcases List.mem_cons.mp h with rfl | h
        · cases e.negative <;> exact .inr (by decide)
        · exact .inl (Digits.exists_of_mem h)

/-- The code points of numerals, words for no number included. -/
theorem mem_toText {c : CodePoint} {n : Numeral} (h : c ∈ n.toText wireWords) :
    c.isUnreserved ∨ c = CodePoint.ofChar '+' := by
  rcases digit_or_mark h with ⟨d, rfl⟩ | h
  · exact .inl (CodePoint.isUnreserved_ofDigit d)
  · exact (by decide : ∀ c ∈ marks, c.isUnreserved ∨ c = CodePoint.ofChar '+') c h

theorem atomic (n : Numeral) : Text.Atomic (n.toText wireWords) := by
  intro c hc
  rcases mem_toText hc with h | rfl
  · exact CodePoint.isAtomic_of_isUnreserved h
  · decide

theorem readSign_digits (d : Digits) (rest : Text) :
    readSign (d.toText ++ rest) = (false, d.toText ++ rest) := by
  have hne : CodePoint.ofDigit d.first ≠ CodePoint.ofChar '-' := Digits.ofDigit_ne (by decide)
  simp only [Digits.toText, Digits.toList, List.map_cons, List.cons_append, readSign, if_neg hne]

theorem readSign_sign (negative : Bool) (d : Digits) (rest : Text) :
    readSign (sign negative ++ (d.toText ++ rest)) = (negative, d.toText ++ rest) := by
  cases negative with
  | false => exact readSign_digits d rest
  | true => rfl

theorem readFraction?_toText (fraction : Option Digits) (exponent : Option Exponent) :
    readFraction? (fractionText fraction ++ exponentText exponent) =
      some (fraction, exponentText exponent) := by
  have he : (exponentText exponent).head?.all fun c => c.digit?.isNone := by
    cases exponent <;> rfl
  cases fraction with
  | none =>
    cases exponent <;> rfl
  | some ds =>
    have ha : Text.after? '.' (fractionText (some ds) ++ exponentText exponent) =
        some (ds.toText ++ exponentText exponent) := by
      rfl
    rw [readFraction?, ha]
    simp only [Digits.read?_toText ds he, Option.map_some]

theorem readExponent?_toText (exponent : Option Exponent) :
    readExponent? (exponentText exponent) = some exponent := by
  cases exponent with
  | none => rfl
  | some e =>
    obtain ⟨negative, ds⟩ := e
    cases negative
    all_goals
      simp only [exponentText, readExponent?, Digits.read?_digits]
      rfl

/-- A decimal begins with a minus or a digit, so no word is one. -/
theorem decimalText_ne (negative : Bool) (d : Digits) (rest : Text) {c : CodePoint} {t : Text}
    (hd : c.digit? = none) (hm : c ≠ CodePoint.ofChar '-') :
    sign negative ++ (d.toText ++ rest) ≠ c :: t := by
  intro h
  cases negative with
  | true => exact hm (List.cons.inj h).1.symm
  | false => exact Digits.ofDigit_ne hd (List.cons.inj h).1

theorem read?_toText (n : Numeral) : read? (n.toText wireWords) = some n := by
  cases n with
  | nan => decide
  | infinite negative => cases negative <;> decide
  | decimal negative whole fraction exponent =>
    have hf : (fractionText fraction ++ exponentText exponent).head?.all fun c => c.digit?.isNone := by
      cases fraction <;> cases exponent <;> rfl
    have hn : sign negative ++ (whole.toText ++ (fractionText fraction ++ exponentText exponent)) ≠
        wireWords.nan := decimalText_ne negative whole _ (c := 'N') (by decide) (by decide)
    have hi : whole.toText ++ (fractionText fraction ++ exponentText exponent) ≠ wireWords.infinity :=
      decimalText_ne false whole _ (c := 'I') (by decide) (by decide)
    simp only [toText, List.append_assoc, read?]
    rw [if_neg hn, readSign_sign]
    simp only [if_neg hi, Digits.read?_toText whole hf, readFraction?_toText, readExponent?_toText,
      Option.bind_eq_bind, Option.bind_some, Option.pure_def]

theorem readSign_sound (t : Text) : sign (readSign t).1 ++ (readSign t).2 = t := by
  cases t with
  | nil => rfl
  | cons c rest =>
    rw [readSign]
    split
    · rename_i hc
      subst hc
      rfl
    · rfl

theorem readFraction?_sound {t rest : Text} {fraction : Option Digits}
    (h : readFraction? t = some (fraction, rest)) : t = fractionText fraction ++ rest := by
  rw [readFraction?] at h
  split at h
  · cases h
    rfl
  · rename_i after ha
    obtain ⟨⟨ds, r⟩, hr, he⟩ := Option.map_eq_some_iff.mp h
    cases he
    rw [Text.after?_eq_some_iff.mp ha, Digits.read?_sound hr]
    rfl

theorem readExponent?_sound {t : Text} {exponent : Option Exponent}
    (h : readExponent? t = some exponent) : t = exponentText exponent := by
  rw [readExponent?.eq_def] at h
  split at h
  · cases h
    rfl
  · rename_i e mark rest
    split at h
    · rename_i hm
      obtain ⟨rfl, hm⟩ := hm
      split at h
      · rename_i ds hr
        cases h
        rw [Digits.read?_sound hr, List.append_nil]
        rcases hm with rfl | rfl
        all_goals rfl
      · contradiction
    · contradiction
  · contradiction

/-- What is read is the text of the numeral: no sign, zero or exponent is passed over. -/
theorem toText_of_read? {t : Text} {n : Numeral} (h : read? t = some n) : t = n.toText wireWords := by
  have hs := readSign_sound t
  rw [read?] at h
  split at h
  · rename_i hn
    cases h
    exact hn
  · simp only at h
    split at h
    · rename_i hi
      cases h
      rw [hi] at hs
      exact hs.symm
    · simp only [Option.bind_eq_bind, Option.bind_eq_some_iff, Option.pure_def,
        Option.some.injEq] at h
      obtain ⟨⟨whole, r₁⟩, hw, ⟨fraction, r₂⟩, hf, exponent, he, rfl⟩ := h
      rw [toText, List.append_assoc, List.append_assoc, ← readExponent?_sound he,
        ← readFraction?_sound hf, ← Digits.read?_sound hw]
      exact hs.symm

theorem read?_eq_some_iff {t : Text} {n : Numeral} : read? t = some n ↔ t = n.toText wireWords := by
  constructor
  · exact toText_of_read?
  · rintro rfl
    exact read?_toText n

end Numeral

end FilterQuery
