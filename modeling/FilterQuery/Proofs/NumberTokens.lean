import FilterQuery.Builder
import FilterQuery.Proofs.FloatReading
import Mathlib.Algebra.Order.Field.Rat
import Mathlib.Algebra.Order.Ring.Cast

namespace FilterQuery

namespace Number

theorem signed_mul (negative : Bool) (m n : Nat) : signed negative (m * n) = signed negative m * n := by
  cases negative with
  | true =>
    change -((m * n : Nat) : Int) = -(m : Int) * n
    rw [Int.natCast_mul, Int.neg_mul]
  | false => exact Int.natCast_mul m n

theorem signed_eq_mul_iff {negative : Bool} {m u : Nat} {n : Int} (hu : 0 < u) :
    signed negative m = n * u ↔ n = signed negative n.natAbs ∧ m = n.natAbs * u := by
  constructor
  · intro h
    have hm : m = n.natAbs * u := by
      rw [← natAbs_signed negative m, h, Int.natAbs_mul, Int.natAbs_natCast]
    rw [hm, signed_mul] at h
    exact ⟨(Int.eq_of_mul_eq_mul_right (Int.natCast_ne_zero.mpr (Nat.ne_of_gt hu)) h).symm, hm⟩
  · rintro ⟨hn, rfl⟩
    rw [signed_mul, ← hn]

end Number

namespace Binary64

/-- The number that a finite float is, exactly. -/
def toRat? : Binary64 → Option ℚ
  | finite negative m => some (Number.signed negative m.units / Magnitude.unitsPerOne)
  | _ => none

theorem toRat?_eq_some_iff {negative : Bool} {m : Magnitude} {q : ℚ} :
    (finite negative m).toRat? = some q ↔ (Number.signed negative m.units : ℚ) = q * Magnitude.unitsPerOne := by
  have hp : (Magnitude.unitsPerOne : ℚ) ≠ 0 := Nat.cast_ne_zero.mpr (Nat.ne_of_gt Magnitude.unitsPerOne_pos)
  rw [toRat?, Option.some.injEq, div_eq_iff hp]

/-- A float is a whole number if the number that it is is whole. -/
theorem toRat?_eq_intCast_iff {x : Binary64} {n : Int} : x.toRat? = some (n : ℚ) ↔ x.toInt? = some n := by
  cases x with
  | nan => exact iff_of_false nofun nofun
  | infinite _ => exact iff_of_false nofun nofun
  | finite negative m =>
    rw [toRat?_eq_some_iff, toInt?_eq_some_iff, ← Number.signed_eq_mul_iff Magnitude.unitsPerOne_pos]
    exact_mod_cast Iff.rfl

/-- Floats that are the same number are the same, but for the zeros. -/
theorem eq_of_toRat? {x y : Binary64} {q : ℚ} (hx : x.toRat? = some q) (hy : y.toRat? = some q) (hq : q ≠ 0) :
    x = y := by
  cases x with
  | nan => contradiction
  | infinite _ => contradiction
  | finite negative m =>
    cases y with
    | nan => contradiction
    | infinite _ => contradiction
    | finite negative' m' =>
      rw [toRat?_eq_some_iff] at hx hy
      have hs : Number.signed negative m.units = Number.signed negative' m'.units := by
        exact_mod_cast hx.trans hy.symm
      have h0 : Number.signed negative m.units ≠ 0 := by
        intro h
        rw [h, Int.cast_zero] at hx
        rcases mul_eq_zero.mp hx.symm with h | h
        · exact hq h
        · exact Nat.ne_of_gt Magnitude.unitsPerOne_pos (Nat.cast_eq_zero.mp h)
      have hm : m = m' := Magnitude.units_injective (by
        rw [← Number.natAbs_signed negative m.units, hs, Number.natAbs_signed])
      have hn : negative = negative' := by
        rw [← Number.signed_lt_zero h0, hs]
        exact Number.signed_lt_zero (hs ▸ h0)
      rw [hm, hn]

end Binary64

namespace Numeral

theorem toText_inj {m n : Numeral} : m.toText wireWords = n.toText wireWords ↔ m = n := by
  refine ⟨fun h => ?_, congrArg _⟩
  have hm := read?_toText m
  rw [h, read?_toText] at hm
  exact (Option.some.inj hm).symm

theorem ofInt_inj {m n : Int} : ofInt m = ofInt n ↔ m = n := by
  refine ⟨fun h => ?_, congrArg _⟩
  rw [ofInt, ofInt, decimal.injEq] at h
  have hd : m.natAbs = n.natAbs := by
    rw [← (Digits.isDecimalOf_ofNat m.natAbs).1, h.2.1, (Digits.isDecimalOf_ofNat n.natAbs).1]
  rw [← Number.signed_natAbs m, ← Number.signed_natAbs n, h.1, hd]

/-- The numeral that shows a float has a point or a power of ten, or is a word. -/
theorem ofBinary64_ne_ofInt (x : Binary64) (n : Int) : ofBinary64 x ≠ ofInt n := by
  cases x with
  | nan => exact Numeral.noConfusion
  | infinite negative => exact Numeral.noConfusion
  | finite negative m =>
    intro h
    rw [ofBinary64, ofDecimal, ofInt] at h
    split_ifs at h
    · exact Option.some_ne_none _ (decimal.inj h).2.2.1
    · exact Option.some_ne_none _ (decimal.inj h).2.2.1
    · exact Option.some_ne_none _ (decimal.inj h).2.2.2

/-- The numeral of a number: the whole number itself, or else the shortest of the float. -/
inductive IsOf : Numeral → ℚ → Prop
  | whole (n : Int) : IsOf (ofInt n) n
  | fractional {x : Binary64} {q : ℚ} (hx : x.toRat? = some q) (hq : ∀ n : Int, q ≠ n) : IsOf (ofBinary64 x) q

theorem IsOf.eq_iff {k l : Numeral} {q r : ℚ} (hk : k.IsOf q) (hl : l.IsOf r) : k = l ↔ q = r := by
  cases hk with
  | whole n =>
    cases hl with
    | whole m => rw [ofInt_inj, Rat.intCast_inj]
    | fractional hy hr => exact ⟨fun h => absurd h.symm (ofBinary64_ne_ofInt _ n), fun h => absurd h.symm (hr n)⟩
  | @fractional x _ hx hq =>
    cases hl with
    | whole m => exact ⟨fun h => absurd h (ofBinary64_ne_ofInt _ m), fun h => absurd h (hq m)⟩
    | @fractional y _ hy hr =>
      -- Each numeral is read as its float, and floats tell numbers other than zero apart.
      constructor
      · intro h
        have he := Number.readFloat?_ofBinary64 y
        rw [← h, Number.readFloat?_ofBinary64] at he
        rw [Option.some.inj he, hy] at hx
        exact (Option.some.inj hx).symm
      · rintro rfl
        have h0 : q ≠ 0 := by
          have h := hq 0
          rwa [Int.cast_zero] at h
        rw [Binary64.eq_of_toRat? hx hy h0]

end Numeral

theorem natAbs_lt_of_abs_lt {n : Int} {k : Nat} (h : |(n : ℚ)| < 10 ^ k) : n.natAbs < 10 ^ k := by
  rw [← Int.cast_abs, Int.abs_eq_natAbs] at h
  exact_mod_cast h

namespace Value

/-- A value that is a number, with that number, if a literal spells it out: a whole number that is not too long to be
written, or a finite float below 10^21. -/
inductive Spelled : Value → ℚ → Prop
  | int {n : Int} (h : (int n).isPrintable) : Spelled (int n) n
  | float {x : Binary64} {q : ℚ} (h : x.toRat? = some q) (hq : |q| < 10 ^ 21) : Spelled (float x) q

/-- Whole numbers below 10^21 are short enough to be written. -/
theorem spelled_of_abs_lt {n : Int} (h : |(n : ℚ)| < 10 ^ 21) : Spelled (int n) n := by
  refine .int (decide_eq_true ?_)
  have hc : Digits.count n.natAbs ≤ 20 + 1 := Digits.count_le (natAbs_lt_of_abs_lt h)
  exact Nat.le_trans hc (by decide)

theorem Spelled.token_eq {v : Value} {q : ℚ} (h : v.Spelled q) :
    ∃ k : Numeral, k.IsOf q ∧ Constructor.number.token [v] = .ok (k.toText Numeral.wireWords) := by
  cases h with
  | @int n h => exact ⟨_, .whole n, if_pos h⟩
  | @float x q hx hq =>
    refine ⟨Numeral.ofFloat x, ?_, rfl⟩
    rw [Numeral.ofFloat]
    split
    · rename_i n hn
      obtain rfl : (n : ℚ) = q := Option.some.inj ((Binary64.toRat?_eq_intCast_iff.mpr hn).symm.trans hx)
      have hl : n.natAbs < Numeral.wholeLimit := natAbs_lt_of_abs_lt hq
      rw [if_pos hl]
      exact .whole n
    · rename_i hn
      refine .fractional hx ?_
      rintro n rfl
      rw [Binary64.toRat?_eq_intCast_iff.mp hx] at hn
      contradiction

end Value

/-- Below 10^21 number literals are the same exactly if the numbers are, of whatever kind they come, and a whole
number is written by its decimal and nothing else. -/
theorem Constructor.numberToken_canonical {v w : Value} {q r : ℚ} (hv : v.Spelled q) (hw : w.Spelled r) :
    ∃ s t, number.token [v] = .ok s ∧ number.token [w] = .ok t ∧ (s = t ↔ q = r) ∧
      ∀ n : Int, q = n → ∃ d : Digits, d.IsDecimalOf n.natAbs ∧ s = Numeral.sign (n < 0) ++ d.toText := by
  obtain ⟨k, hk, hs⟩ := hv.token_eq
  obtain ⟨l, hl, ht⟩ := hw.token_eq
  refine ⟨_, _, hs, ht, Numeral.toText_inj.trans (hk.eq_iff hl), ?_⟩
  intro n hn
  obtain rfl : k = Numeral.ofInt n := (hk.eq_iff (.whole n)).mpr hn
  exact ⟨Digits.ofNat n.natAbs, Digits.isDecimalOf_ofNat _, Text.ofInt_eq n⟩

/-- The float 2^53 + 2, past which not every whole number is a float, and the whole number. -/
theorem Constructor.numberToken_canonical_pastPrecision :
    ∃ s, number.token [.float (.finite false
        ⟨4503599627370497, 1075, by decide, by decide, .inr (by decide)⟩)] = .ok s ∧
      number.token [.int 9007199254740994] = .ok s := by
  have hx : (Binary64.finite false ⟨4503599627370497, 1075, by decide, by decide, .inr (by decide)⟩).toInt? =
      some 9007199254740994 := by decide +kernel
  have hl : |((9007199254740994 : Int) : ℚ)| < 10 ^ 21 := by decide +kernel
  obtain ⟨s, t, hs, ht, he, -⟩ := numberToken_canonical (.float (Binary64.toRat?_eq_intCast_iff.mpr hx) hl)
    (Value.spelled_of_abs_lt hl)
  obtain rfl : s = t := he.mpr rfl
  exact ⟨s, hs, ht⟩

end FilterQuery
