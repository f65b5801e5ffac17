import FilterQuery.Proofs.Grammar

namespace FilterQuery

open Grammar

theorem Numeral.toText_ne_cons {n : Numeral} {c : CodePoint} {t : Text} (hd : c.digit? = none)
    (hm : c ∉ [CodePoint.ofChar '-', CodePoint.ofChar 'N', CodePoint.ofChar 'I']) :
    n.toText wireWords ≠ c :: t := by
  simp only [List.mem_cons, List.not_mem_nil, or_false, not_or] at hm
  obtain ⟨hm, hn, hi⟩ := hm
  cases n with
  | nan => exact fun h => hn (List.cons.inj h).1.symm
  | infinite negative =>
    cases negative with
    | true => exact fun h => hm (List.cons.inj h).1.symm
    | false => exact fun h => hi (List.cons.inj h).1.symm
  | decimal negative whole fraction exponent =>
    rw [toText, List.append_assoc, List.append_assoc]
    exact decimalText_ne negative whole _ hd hm

theorem Timestamp.colon_mem (i : Timestamp) : CodePoint.ofChar ':' ∈ i.toText := by
  rw [toText_eq]
  simp

theorem Numeral.toText_ne_timestamp (n : Numeral) (i : Timestamp) : n.toText wireWords ≠ i.toText := by
  intro h
  rcases mem_toText (h ▸ i.colon_mem) with hc | hc
  all_goals revert hc; decide

theorem Timestamp.toText_ne_cons {i : Timestamp} {c : CodePoint} {t : Text} (hd : c.digit? = none) :
    i.toText ≠ c :: t := by
  intro h
  rw [toText_eq] at h
  exact Digits.ofDigit_ne hd (List.cons.inj h).1

namespace Literal

theorem read?_text (e : Text) : read? (CodePoint.ofChar '$' :: e) = (Text.unescape? e).map text := by
  have hn : CodePoint.ofChar '$' :: e ≠ nullToken := by intro h; cases h
  have ht : CodePoint.ofChar '$' :: e ≠ boolToken true := by intro h; cases h
  have hf : CodePoint.ofChar '$' :: e ≠ boolToken false := by intro h; cases h
  rw [read?, if_neg hn, if_neg ht, if_neg hf, Text.after?_cons]

/-- Texts that no word and no dollar sign begins are numbers or timestamps. -/
theorem read?_rest {t : Text} (h : ∀ c ∈ [CodePoint.ofChar 'n', 't', 'f', '$'], ∀ rest, t ≠ c :: rest) :
    read? t = ((Numeral.read? t).map number).or ((Timestamp.read? t).map instant) := by
  have hn : t ≠ nullToken := h 'n' (by decide) _
  have ht : t ≠ boolToken true := h 't' (by decide) _
  have hf : t ≠ boolToken false := h 'f' (by decide) _
  have hd : Text.after? '$' t = none := by
    cases ha : Text.after? '$' t with
    | none => rfl
    | some rest => exact absurd (Text.after?_eq_some_iff.mp ha) (h '$' (by decide) rest)
  rw [read?, if_neg hn, if_neg ht, if_neg hf, hd]
  simp only
  cases Numeral.read? t <;> rfl

theorem read?_of_isLiteral {t : Text} {l : Literal} (h : IsLiteral t l) : read? t = some l := by
  cases h with
  | null => decide
  | true => decide
  | false => decide
  | number n =>
    have hne : ∀ c ∈ [CodePoint.ofChar 'n', 't', 'f', '$'], ∀ rest,
        n.toText Numeral.wireWords ≠ c :: rest := by
      intro c hc rest
      apply Numeral.toText_ne_cons <;> revert c <;> decide
    rw [read?_rest hne, Numeral.read?_toText]
    rfl
  | text he =>
    exact (read?_text _).trans (congrArg (Option.map text) (Text.unescape?_eq_some_iff.mpr he))
  | instant i =>
    have hne : ∀ c ∈ [CodePoint.ofChar 'n', 't', 'f', '$'], ∀ rest, i.toText ≠ c :: rest := by
      intro c hc rest
      apply Timestamp.toText_ne_cons
      revert c
      decide
    have hn : Numeral.read? i.toText = none := by
      cases hr : Numeral.read? i.toText with
      | none => rfl
      | some n => exact absurd (Numeral.toText_of_read? hr).symm (n.toText_ne_timestamp i)
    rw [read?_rest hne, hn, Timestamp.read?_toText]
    rfl

theorem isLiteral_of_read? {t : Text} {l : Literal} (h : read? t = some l) : IsLiteral t l := by
  rw [read?] at h
  split at h
  · rename_i ht
    cases h
    exact ht ▸ .null
  split at h
  · rename_i ht
    cases h
    exact ht ▸ .true
  split at h
  · rename_i ht
    cases h
    exact ht ▸ .false
  split at h
  · rename_i rest hr
    obtain ⟨s, hs, rfl⟩ := Option.map_eq_some_iff.mp h
    rw [Text.after?_eq_some_iff.mp hr]
    exact .text (Text.unescape?_eq_some_iff.mp hs)
  split at h
  · rename_i n hn
    cases h
    rw [Numeral.toText_of_read? hn]
    exact .number n
  · obtain ⟨i, hi, rfl⟩ := Option.map_eq_some_iff.mp h
    rw [Timestamp.toText_of_read? hi]
    exact .instant i

theorem read?_eq_some_iff {t : Text} {l : Literal} : read? t = some l ↔ IsLiteral t l :=
  ⟨isLiteral_of_read?, read?_of_isLiteral⟩

end Literal

namespace Grammar

theorem IsLiteral.atomic {t : Text} {l : Literal} (h : IsLiteral t l) : t.Atomic := by
  cases h with
  | null => decide
  | true => decide
  | false => decide
  | number n => exact n.atomic
  | text he => exact .cons (by decide) he.atomic
  | instant i => exact i.atomic

end Grammar

end FilterQuery
