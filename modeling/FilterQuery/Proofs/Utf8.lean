import FilterQuery.Text.Utf8

namespace FilterQuery

namespace CodePoint

theorem ofNat?_val (c : CodePoint) : ofNat? c.val = some c := by
  rw [ofNat?, dif_pos c.val_lt]

theorem val_of_ofNat? {n : Nat} {c : CodePoint} (h : ofNat? n = some c) : c.val = n := by
  simp only [ofNat?] at h
  split at h
  · cases h; rfl
  · contradiction

end CodePoint

namespace Utf8

open CodePoint

/-- A leading payload and its tail make one code point, and only if no shorter form has room for it. -/
theorem assemble?_eq_some_iff {least lead : Nat} {tail : List Byte} {c : CodePoint} :
    assemble? least lead tail = some c ↔
      (∀ b ∈ tail, isTail b) ∧ least ≤ c.val ∧ payload lead tail = c.val := by
  simp only [assemble?, Bool.and_eq_true, List.all_eq_true, decide_eq_true_eq]
  constructor
  · intro h
    split at h
    · rename_i hp
      have hv := val_of_ofNat? h
      exact ⟨hp.1, hv ▸ hp.2, hv.symm⟩
    · contradiction
  · rintro ⟨ht, hl, hp⟩
    rw [hp, if_pos ⟨ht, hl⟩, ofNat?_val]

/-- The four lengths are told apart by the leading byte alone, whatever follows. -/
theorem decode?_utf8 (c : CodePoint) (bs : List Byte) :
    decode? (c.utf8 ++ bs) = (decode? bs).map (c :: ·) := by
  have hc := c.val_lt
  unfold CodePoint.utf8
  split
  · rename_i h
    rw [List.singleton_append, decode?.eq_def]
    simp only [h, if_pos, ofNat?_val]
    cases decode? bs <;> rfl
  split
  · rename_i h₁ h₂
    have ha : assemble? 0x80 (0xC0 + c.val / 0x40 - 0xC0) [⟨0x80 + c.val % 0x40, by omega⟩] =
        some c := by
      apply assemble?_eq_some_iff.mpr
      simp [payload, isTail]
      omega
    rw [List.cons_append, List.singleton_append, decode?.eq_def]
    simp only [ha]
    rw [if_neg (by omega), if_neg (by omega), if_pos (by omega)]
    cases decode? bs <;> rfl
  split
  · rename_i h₁ h₂ h₃
    have ha : assemble? 0x800 (0xE0 + c.val / 0x1000 - 0xE0)
        [⟨0x80 + c.val / 0x40 % 0x40, by omega⟩, ⟨0x80 + c.val % 0x40, by omega⟩] = some c := by
      apply assemble?_eq_some_iff.mpr
      simp [payload, isTail]
      omega
    simp only [List.cons_append, List.nil_append]
    rw [decode?.eq_def]
    simp only [ha]
    rw [if_neg (by omega), if_neg (by omega), if_neg (by omega), if_pos (by omega)]
    cases decode? bs <;> rfl
  · rename_i h₁ h₂ h₃
    have ha : assemble? 0x10000 (0xF0 + c.val / 0x40000 - 0xF0)
        [⟨0x80 + c.val / 0x1000 % 0x40, by omega⟩, ⟨0x80 + c.val / 0x40 % 0x40, by omega⟩,
          ⟨0x80 + c.val % 0x40, by omega⟩] = some c := by
      apply assemble?_eq_some_iff.mpr
      simp [payload, isTail]
      omega
    simp only [List.cons_append, List.nil_append]
    rw [decode?.eq_def]
    simp only [ha]
    rw [if_neg (by omega), if_neg (by omega), if_neg (by omega), if_neg (by omega), if_pos (by omega)]
    cases decode? bs <;> rfl

theorem decode?_encode (t : Text) : decode? (encode t) = some t := by
  induction t with
  | nil => simp [encode, decode?]
  | cons c t ih =>
    rw [encode, List.flatMap_cons, decode?_utf8]
    change (decode? (encode t)).map _ = _
    rw [ih]
    rfl

theorem utf8_of_pair {a b : Byte} {c : CodePoint} (h₁ : ¬a.val < 0xC0) (h₂ : a.val < 0xE0)
    (h : assemble? 0x80 (a.val - 0xC0) [b] = some c) : c.utf8 = [a, b] := by
  obtain ⟨ht, hl, hp⟩ := assemble?_eq_some_iff.mp h
  simp only [List.mem_singleton, forall_eq, isTail, Bool.and_eq_true, decide_eq_true_eq] at ht
  simp only [payload, List.foldl_cons, List.foldl_nil] at hp
  rw [CodePoint.utf8, dif_neg (by omega), dif_pos (by omega)]
  simp only [List.cons.injEq, Fin.ext_iff, and_true]
  omega

theorem utf8_of_triple {a b c : Byte} {p : CodePoint} (h₁ : ¬a.val < 0xE0) (h₂ : a.val < 0xF0)
    (h : assemble? 0x800 (a.val - 0xE0) [b, c] = some p) : p.utf8 = [a, b, c] := by
  obtain ⟨ht, hl, hp⟩ := assemble?_eq_some_iff.mp h
  simp only [List.mem_cons, List.not_mem_nil, or_false, forall_eq_or_imp, forall_eq, isTail,
    Bool.and_eq_true, decide_eq_true_eq] at ht
  simp only [payload, List.foldl_cons, List.foldl_nil] at hp
  rw [CodePoint.utf8, dif_neg (by omega), dif_neg (by omega), dif_pos (by omega)]
  simp only [List.cons.injEq, Fin.ext_iff, and_true]
  omega

theorem utf8_of_quadruple {a b c d : Byte} {p : CodePoint} (h₁ : ¬a.val < 0xF0)
    (h : assemble? 0x10000 (a.val - 0xF0) [b, c, d] = some p) : p.utf8 = [a, b, c, d] := by
  obtain ⟨ht, hl, hp⟩ := assemble?_eq_some_iff.mp h
  simp only [List.mem_cons, List.not_mem_nil, or_false, forall_eq_or_imp, forall_eq, isTail,
    Bool.and_eq_true, decide_eq_true_eq] at ht
  simp only [payload, List.foldl_cons, List.foldl_nil] at hp
  rw [CodePoint.utf8, dif_neg (by omega), dif_neg (by omega), dif_neg (by omega)]
  simp only [List.cons.injEq, Fin.ext_iff, and_true]
  omega

/-- One step of the decoder, given that the first code point is spelled by the bytes taken. -/
theorem encode_step {first : Option CodePoint} {front rest : List Byte} {t : Text}
    (hf : ∀ c, first = some c → c.utf8 = front)
    (hr : ∀ {t : Text}, decode? rest = some t → encode t = rest)
    (h : (do return (← first) :: (← decode? rest)) = some t) : encode t = front ++ rest := by
  cases first with
  | none => contradiction
  | some c =>
    cases hd : decode? rest with
    | none => rw [hd] at h; contradiction
    | some s =>
      rw [hd] at h
      cases h
      rw [encode, List.flatMap_cons, hf c rfl]
      exact congrArg (front ++ ·) (hr hd)

/-- Bytes that are read are the bytes that would be written: longer forms are refused. -/
theorem encode_of_decode? {bs : List Byte} {t : Text} (h : decode? bs = some t) : encode t = bs := by
  fun_induction decode? bs generalizing t with
  | case1 => cases h; rfl
  | case2 a rest ha ih =>
    have hf : ∀ c, CodePoint.ofNat? a.val = some c → c.utf8 = [a] := by
      intro c hc
      have hv := val_of_ofNat? hc
      rw [CodePoint.utf8, dif_pos (by omega)]
      simp only [hv]
    exact encode_step hf ih h
  | case5 a ha b rest h₁ h₂ ih => exact encode_step (fun c => utf8_of_pair h₁ h₂) ih h
  | case7 a ha b h₁ h₂ c rest h₃ ih => exact encode_step (fun p => utf8_of_triple h₂ h₃) ih h
  | case9 a ha b h₁ h₂ c h₃ d rest h₄ ih => exact encode_step (fun p => utf8_of_quadruple h₃) ih h
  | _ => contradiction

theorem decode?_eq_some_iff {bs : List Byte} {t : Text} : decode? bs = some t ↔ bs = encode t := by
  constructor
  · intro h
    exact (encode_of_decode? h).symm
  · rintro rfl
    exact decode?_encode t

end Utf8

end FilterQuery
