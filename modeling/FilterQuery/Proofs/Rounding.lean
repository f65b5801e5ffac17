import FilterQuery.Number.Shortest
import FilterQuery.Proofs.Numeral

namespace FilterQuery

namespace Digits

theorem toList_ofNat (n : Nat) : (ofNat n).toList = prepend n [] := by
  obtain ⟨d, ds, hp, -⟩ := prepend_cons n
  rw [ofNat, hp]
  rfl

theorem count_eq (n : Nat) : count n = (prepend n []).length := by rw [count, toList_ofNat]

theorem count_mul_ten {n : Nat} (h : n ≠ 0) : count (n * 10) = count n + 1 := by
  rw [count_eq, count_eq, prepend_step (by omega), prepend_append, Nat.mul_div_cancel _ (by decide),
    List.length_append, List.length_singleton]

/-- Zeros at the end of a number are as many digits more. -/
theorem count_mul_pow {n : Nat} (h : n ≠ 0) (k : Nat) : count (n * 10 ^ k) = count n + k := by
  induction k with
  | zero => rw [Nat.pow_zero, Nat.mul_one, Nat.add_zero]
  | succ k ih =>
    have hn : n * 10 ^ k ≠ 0 := Nat.mul_ne_zero h (Nat.ne_of_gt (Nat.pow_pos (by decide)))
    rw [Nat.pow_succ, ← Nat.mul_assoc, count_mul_ten hn, ih, Nat.add_assoc]

theorem count_le {n k : Nat} (h : n < 10 ^ (k + 1)) : count n ≤ k + 1 := by
  rw [count_eq]
  exact length_prepend_le h

theorem lt_count {n k : Nat} (h : 10 ^ k ≤ n) : k < count n := by
  have hv := valueOf_lt (prepend n [])
  rw [valueOf_prepend, ← count_eq] at hv
  exact (Nat.pow_lt_pow_iff_right (by decide)).mp (Nat.lt_of_le_of_lt h hv)

end Digits

namespace Magnitude

theorem unitsPerOne_pos : 0 < unitsPerOne := by decide +kernel

theorem roundHalfEven_mul (q : Nat) {d : Nat} (hd : 0 < d) : roundHalfEven (q * d) d = q := by
  simp only [roundHalfEven, Nat.mul_div_cancel _ hd, Nat.mul_mod_left, Nat.mul_zero, if_pos hd]

theorem roundHalfEven_scale (n d : Nat) {k : Nat} (hk : 0 < k) :
    roundHalfEven (n * k) (d * k) = roundHalfEven n d := by
  have hl (a b : Nat) : a * k < b * k ↔ a < b := Nat.mul_lt_mul_right hk
  simp only [roundHalfEven, Nat.mul_div_mul_right _ _ hk, Nat.mul_mod_mul_right, ← Nat.mul_assoc, hl]

/-- A quotient is rounded by its value alone. -/
theorem ofRatio?_scale (n d : Nat) {k : Nat} (hk : 0 < k) : ofRatio? (n * k) (d * k) = ofRatio? n d := by
  simp only [ofRatio?, Nat.mul_div_mul_right _ _ hk, Nat.mul_right_comm d k, roundHalfEven_scale _ _ hk]

theorem shift_eq (m : Magnitude) : m.units.log2 - 52 = m.shift := by
  obtain ⟨significand, shift, hs, hl, hn⟩ := m
  simp only [Nat.pow_eq] at hs hn
  simp only [units, Nat.pow_eq]
  rcases hn with rfl | hn
  · rw [Nat.pow_zero, Nat.mul_one]
    by_cases h0 : significand = 0
    · rw [h0, Nat.log2_zero]
    · have := (Nat.log2_lt h0).mpr hs
      omega
  · have hp : 0 < 2 ^ shift := Nat.pow_pos (by decide)
    have h0 : significand * 2 ^ shift ≠ 0 := by
      have : 0 < significand := Nat.lt_of_lt_of_le (by decide) hn
      exact Nat.ne_of_gt (Nat.mul_pos this hp)
    have hlog : (significand * 2 ^ shift).log2 = 52 + shift := by
      rw [Nat.log2_eq_iff h0, Nat.add_right_comm, Nat.pow_add, Nat.pow_add]
      exact ⟨Nat.mul_le_mul_right _ hn, Nat.mul_lt_mul_of_pos_right hs hp⟩
    rw [hlog, Nat.add_sub_cancel_left]

/-- Nothing is lost in rounding a whole count of units that a float has. -/
theorem ofRatio?_units (m : Magnitude) {d : Nat} (hd : 0 < d) : ofRatio? (m.units * d) d = some m := by
  have hp : 0 < d * Nat.pow 2 m.shift := Nat.mul_pos hd (Nat.pow_pos (by decide))
  have hu : m.units * d = m.significand * (d * Nat.pow 2 m.shift) := by
    rw [units, Nat.mul_assoc, Nat.mul_comm d]
  have hr : roundHalfEven (m.units * d) (d * Nat.pow 2 m.shift) = m.significand := by
    rw [hu, roundHalfEven_mul _ hp]
  simp only [ofRatio?, Nat.mul_div_cancel _ hd, shift_eq, hr]
  rw [if_neg (Nat.ne_of_lt m.significand_lt), of?, dif_pos ⟨m.significand_lt, m.shift_le, m.normal⟩]

theorem units_injective : Function.Injective units := by
  intro m n h
  have hm := m.ofRatio?_units Nat.one_pos
  rw [h, n.ofRatio?_units Nat.one_pos] at hm
  exact (Option.some.inj hm).symm

theorem units_eq_zero_iff {m : Magnitude} : m.units = 0 ↔ m.significand = 0 := by
  have hp : Nat.pow 2 m.shift ≠ 0 := Nat.ne_of_gt (Nat.pow_pos (by decide))
  rw [units, Nat.mul_eq_zero, or_iff_left hp]

theorem units_lt_of_le {m : Magnitude} (k : Nat) (hk : m.shift ≤ k) {n : Nat}
    (hn : Nat.pow 2 53 * Nat.pow 2 k ≤ n) : m.units < n :=
  have hs := Nat.pow_le_pow_right (by decide : 0 < 2) hk
  Nat.lt_of_lt_of_le (Nat.mul_lt_mul_of_lt_of_le m.significand_lt hs (Nat.pow_pos (by decide))) hn

/-- No float is as great as 2^1024. -/
theorem units_lt (m : Magnitude) : m.units < 2 ^ 1024 * unitsPerOne :=
  units_lt_of_le 2045 m.shift_le (by decide +kernel)

end Magnitude

namespace Binary64

/-- A zero more in the coefficient and a power of ten less change nothing. -/
theorem ofUnits_scale (negative : Bool) (n d : Nat) {k : Nat} (hk : 0 < k) :
    ofUnits negative (n * k) (d * k) = ofUnits negative n d := by
  unfold ofUnits
  simp only [Magnitude.ofRatio?_scale _ _ hk]

theorem ofUnits_units (negative : Bool) (m : Magnitude) {d : Nat} (hd : 0 < d) :
    ofUnits negative (m.units * d) d = finite negative m := by
  unfold ofUnits
  simp only [m.ofRatio?_units hd]

/-- The count of units that a decimal comes to, as a quotient. -/
def decimalUnits (coefficient : Nat) (exponent : Int) : Nat × Nat :=
  if exponent < 0 then (coefficient * Magnitude.unitsPerOne, 10 ^ exponent.natAbs)
  else (coefficient * 10 ^ exponent.natAbs * Magnitude.unitsPerOne, 1)

theorem ofDecimal_eq (negative : Bool) (coefficient : Nat) (exponent : Int) :
    ofDecimal negative coefficient exponent =
      if coefficient = 0 then finite negative .zero
      else if 310 < exponent + Digits.count coefficient then infinite negative
      else if exponent + Digits.count coefficient < -330 then finite negative .zero
      else ofUnits negative (decimalUnits coefficient exponent).1 (decimalUnits coefficient exponent).2 := by
  rw [ofDecimal, decimalUnits]
  split_ifs <;> rfl

/-- Zeros may go from the exponent of a decimal to its coefficient. -/
theorem ofUnits_decimalUnits (negative : Bool) (coefficient : Nat) (exponent : Int) (k : Nat) :
    ofUnits negative (decimalUnits (coefficient * 10 ^ k) (exponent - k)).1
        (decimalUnits (coefficient * 10 ^ k) (exponent - k)).2 =
      ofUnits negative (decimalUnits coefficient exponent).1 (decimalUnits coefficient exponent).2 := by
  have hp (j : Nat) : 0 < 10 ^ j := Nat.pow_pos (by decide)
  unfold decimalUnits
  by_cases he : exponent < 0
  · have hk : (exponent - k).natAbs = exponent.natAbs + k := by omega
    rw [if_pos (by omega), if_pos he, hk, Nat.pow_add]
    dsimp only
    rw [Nat.mul_right_comm, ofUnits_scale _ _ _ (hp k)]
  · rw [if_neg he]
    split
    · have hk : k = exponent.natAbs + (exponent - k).natAbs := by omega
      have hc : coefficient * 10 ^ k = coefficient * 10 ^ exponent.natAbs * 10 ^ (exponent - k).natAbs := by
        rw [Nat.mul_assoc, ← Nat.pow_add, ← hk]
      have hs := ofUnits_scale negative (coefficient * 10 ^ exponent.natAbs * Magnitude.unitsPerOne) 1
        (hp (exponent - k).natAbs)
      rw [Nat.one_mul] at hs
      dsimp only
      rw [hc, Nat.mul_right_comm, hs]
    · have hk : exponent.natAbs = k + (exponent - k).natAbs := by omega
      dsimp only
      rw [hk, Nat.pow_add, ← Nat.mul_assoc]

/-- A decimal is rounded by its value alone. -/
theorem ofDecimal_scale (negative : Bool) (coefficient : Nat) (exponent : Int) (k : Nat) :
    ofDecimal negative (coefficient * 10 ^ k) (exponent - k) = ofDecimal negative coefficient exponent := by
  rw [ofDecimal_eq, ofDecimal_eq, ofUnits_decimalUnits]
  by_cases h0 : coefficient = 0
  · rw [if_pos h0, if_pos (by rw [h0, Nat.zero_mul])]
  · have hk : coefficient * 10 ^ k ≠ 0 := Nat.mul_ne_zero h0 (Nat.ne_of_gt (Nat.pow_pos (by decide)))
    have hc : exponent - k + Digits.count (coefficient * 10 ^ k) = exponent + Digits.count coefficient := by
      rw [Digits.count_mul_pow h0]
      omega
    rw [if_neg h0, if_neg hk, hc]

/-- The sign of a decimal is that of the float. -/
theorem ofDecimal_sign {coefficient : Nat} {exponent : Int} {m : Magnitude}
    (h : ofDecimal false coefficient exponent = finite false m) (negative : Bool) :
    ofDecimal negative coefficient exponent = finite negative m := by
  rw [ofDecimal_eq] at h ⊢
  unfold ofUnits at h ⊢
  split_ifs at h ⊢
  · cases h
    rfl
  · cases h
    rfl
  · split at h
    · cases h
      rfl
    · contradiction

/-- A decimal that comes to the units of a float is rounded to it, if it is in the range that is looked at. -/
theorem ofDecimal_of_units (negative : Bool) {coefficient d : Nat} {exponent : Int} {m : Magnitude}
    (hc : coefficient ≠ 0) (hl : -330 ≤ exponent + Digits.count coefficient)
    (hu : exponent + Digits.count coefficient ≤ 310) (hd : 0 < d)
    (h : decimalUnits coefficient exponent = (m.units * d, d)) :
    ofDecimal negative coefficient exponent = finite negative m := by
  rw [ofDecimal_eq, if_neg hc, if_neg (Int.not_lt.mpr hu), if_neg (Int.not_lt.mpr hl), h, ofUnits_units _ _ hd]

/-- A whole number that a float is equal to is rounded to it. -/
theorem ofDecimal_whole (negative : Bool) {m : Magnitude} (hm : m.significand ≠ 0) {n : Nat}
    (hn : m.units = n * Magnitude.unitsPerOne) : ofDecimal negative n 0 = finite negative m := by
  have h0 : n ≠ 0 := by
    rintro rfl
    rw [Nat.zero_mul] at hn
    exact hm (Magnitude.units_eq_zero_iff.mp hn)
  have hc : Digits.count n ≤ 308 + 1 := by
    have hu := m.units_lt
    rw [hn] at hu
    have hp : 2 ^ 1024 ≤ 10 ^ (308 + 1) := by decide +kernel
    exact Digits.count_le (Nat.lt_of_lt_of_le (Nat.lt_of_mul_lt_mul_right hu) hp)
  refine ofDecimal_of_units negative h0 (by omega) (by omega) Nat.one_pos ?_
  rw [decimalUnits, if_neg (by decide), hn, Nat.mul_one, Int.natAbs_zero, Nat.pow_zero, Nat.mul_one]

end Binary64

namespace Magnitude

theorem exact_bounds {m : Magnitude} (hm : m.significand ≠ 0) :
    10 ^ 750 ≤ m.exact.coefficient ∧ m.exact.coefficient < 10 ^ (1382 + 1) := by
  have hpos : 0 < m.units := Nat.pos_of_ne_zero fun h => hm (units_eq_zero_iff.mp h)
  have hc : m.exact.coefficient = m.units * Nat.pow 5 1074 := rfl
  have hlow (n : Nat) : n ≤ m.units * n := Nat.le_mul_of_pos_left n hpos
  have hhigh (n : Nat) (hn : 0 < n) : m.units * n < 2 ^ 1024 * unitsPerOne * n :=
    Nat.mul_lt_mul_of_pos_right m.units_lt hn
  rw [hc]
  refine ⟨?_, ?_⟩
  · calc 10 ^ 750 ≤ Nat.pow 5 1074 := by decide +kernel
      _ ≤ m.units * Nat.pow 5 1074 := hlow (Nat.pow 5 1074)
  · calc m.units * Nat.pow 5 1074 < 2 ^ 1024 * unitsPerOne * Nat.pow 5 1074 :=
          hhigh (Nat.pow 5 1074) (by decide +kernel)
      _ ≤ 10 ^ (1382 + 1) := by decide +kernel

theorem decimalUnits_exact (m : Magnitude) :
    Binary64.decimalUnits m.exact.coefficient m.exact.exponent = (m.units * 10 ^ 1074, 10 ^ 1074) := by
  have hp : Nat.pow 5 1074 * unitsPerOne = 10 ^ 1074 := by decide +kernel
  have he : (-1074 : Int).natAbs = 1074 := by decide
  rw [exact, Binary64.decimalUnits, if_pos (by decide : (-1074 : Int) < 0), Nat.mul_assoc, hp, he]

/-- All digits of a float are rounded to it. -/
theorem readsBack_exact {m : Magnitude} (hm : m.significand ≠ 0) : m.exact.ReadsBack m := by
  obtain ⟨hlow, hhigh⟩ := exact_bounds hm
  have hten (k : Nat) : 0 < 10 ^ k := Nat.pow_pos (by decide)
  have h0 : m.exact.coefficient ≠ 0 := Nat.ne_of_gt (Nat.lt_of_lt_of_le (hten 750) hlow)
  have he : m.exact.exponent = -1074 := rfl
  have hl := Digits.lt_count hlow
  have hh := Digits.count_le hhigh
  clear hlow hhigh
  exact Binary64.ofDecimal_of_units false h0 (by omega) (by omega) (hten 1074) m.decimalUnits_exact

theorem readsBack_of_shortestOf {m : Magnitude} {counts : List Nat} {d : Decimal}
    (h : m.shortestOf counts = some d) : d.ReadsBack m := by
  obtain ⟨k, _, hd⟩ := List.exists_of_findSome?_eq_some h
  have hp := List.find?_some hd
  exact of_decide_eq_true hp

theorem readsBack_getD {m : Magnitude} (hm : m.significand ≠ 0) {found : Option Decimal}
    (h : ∀ d, found = some d → d.ReadsBack m) : (found.getD m.exact).ReadsBack m := by
  cases found with
  | some d => exact h d rfl
  | none => exact readsBack_exact hm

theorem readsBack_shortest {m : Magnitude} (hm : m.significand ≠ 0) : m.shortest.ReadsBack m := by
  unfold shortest
  exact readsBack_getD hm fun _ => readsBack_of_shortestOf

end Magnitude

end FilterQuery
