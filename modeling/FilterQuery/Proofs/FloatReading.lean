import FilterQuery.Number.Layout
import FilterQuery.Proofs.NumberReading

namespace FilterQuery

namespace Digits

theorem valueOf_append (as bs : List (Fin 10)) : valueOf (as ++ bs) = valueOf as * 10 ^ bs.length + valueOf bs := by
  induction bs using List.reverseRecOn with
  | nil => rw [List.append_nil, List.length_nil, Nat.pow_zero, Nat.mul_one]; rfl
  | append_singleton bs b ih =>
    rw [← List.append_assoc, valueOf_concat, valueOf_concat, ih, List.length_append, List.length_singleton,
      Nat.pow_succ, Nat.add_mul, Nat.mul_assoc, Nat.add_assoc]

theorem valueOf_zero_cons (ds : List (Fin 10)) : valueOf (0 :: ds) = valueOf ds := rfl

theorem valueOf_zeros_append (k : Nat) (ds : List (Fin 10)) :
    valueOf (List.replicate k 0 ++ ds) = valueOf ds := by
  induction k with
  | zero => rfl
  | succ k ih => rw [List.replicate_succ, List.cons_append, valueOf_zero_cons, ih]

theorem valueOf_append_zeros (ds : List (Fin 10)) (k : Nat) :
    valueOf (ds ++ List.replicate k 0) = valueOf ds * 10 ^ k := by
  have hz : valueOf (List.replicate k 0) = 0 := by
    have h := valueOf_zeros_append k []
    rwa [List.append_nil] at h
  rw [valueOf_append, hz, List.length_replicate, Nat.add_zero]

end Digits

namespace Decimal

/-- The digits of the coefficient are those of the decimal and some zeros. -/
theorem digits_append_zeros (d : Decimal) :
    ∃ k, (Digits.ofNat d.coefficient).toList = d.digits ++ List.replicate k 0 := by
  have h (ds : List (Fin 10)) :
      ds = (ds.reverse.dropWhile (· = 0)).reverse ++ List.replicate (ds.reverse.takeWhile (· = 0)).length 0 := by
    have hz : ∀ x ∈ ds.reverse.takeWhile (· = 0), x = 0 := by
      intro x hx
      have hp := List.mem_takeWhile_imp hx
      exact of_decide_eq_true hp
    rw [← List.reverse_replicate, ← List.eq_replicate_of_mem hz, ← List.reverse_append,
      List.takeWhile_append_dropWhile, List.reverse_reverse]
  exact ⟨_, h _⟩

end Decimal

namespace Binary64

theorem ofDecimal_zero (negative : Bool) (exponent : Int) :
    ofDecimal negative 0 exponent = finite negative .zero := by
  rw [ofDecimal_eq, if_pos rfl]

/-- A decimal is rounded by its digits and the place of its point. -/
theorem ofDecimal_digits (negative : Bool) (d : Decimal) (k : Nat) :
    ofDecimal negative (Digits.valueOf d.digits * 10 ^ k) (d.places - d.digits.length - k) =
      ofDecimal negative d.coefficient d.exponent := by
  obtain ⟨j, hj⟩ := d.digits_append_zeros
  have hc : Digits.valueOf d.digits * 10 ^ j = d.coefficient := by
    rw [← Digits.valueOf_append_zeros, ← hj]
    exact (Digits.isDecimalOf_ofNat d.coefficient).1
  have hn : Digits.count d.coefficient = d.digits.length + j := by
    rw [Digits.count, hj, List.length_append, List.length_replicate]
  have he : d.places - d.digits.length - j = d.exponent := by
    rw [Decimal.places, hn]
    omega
  rw [ofDecimal_scale, ← hc, ← he, ofDecimal_scale]

/-- A zero stands for digits that are missing before the point or after it. -/
theorem ofDecimal_ofList (negative : Bool) (before after : List (Fin 10)) :
    ofDecimal negative (Digits.valueOf ((Digits.ofList before).toList ++ (Digits.ofList after).toList))
        (0 - (Digits.ofList after).toList.length) =
      ofDecimal negative (Digits.valueOf (before ++ after)) (0 - after.length) := by
  have hb : ∀ ds, Digits.valueOf ((Digits.ofList before).toList ++ ds) = Digits.valueOf (before ++ ds) := by
    intro ds
    cases before <;> rfl
  cases after with
  | cons d ds => rw [hb]; rfl
  | nil =>
    have hz := Digits.valueOf_append_zeros before 1
    have hs := ofDecimal_scale negative (Digits.valueOf before) 0 1
    rw [hb, List.append_nil]
    exact (congrArg₂ (ofDecimal negative) hz rfl).trans hs

theorem eq_finite_of_toInt? {x : Binary64} {n : Int} (h : x.toInt? = some n) :
    ∃ negative m, x = finite negative m := by
  cases x with
  | nan => contradiction
  | infinite _ => contradiction
  | finite negative m => exact ⟨negative, m, rfl⟩

/-- A float is a whole number if it has as many units and the sign, which a zero may have either way. -/
theorem toInt?_eq_some_iff {negative : Bool} {m : Magnitude} {n : Int} :
    (finite negative m).toInt? = some n ↔
      n = Number.signed negative n.natAbs ∧ m.units = n.natAbs * Magnitude.unitsPerOne := by
  rw [toInt?]
  constructor
  · intro h
    split at h
    · rename_i hm
      have hd := Nat.div_mul_cancel (Nat.dvd_of_mod_eq_zero hm)
      generalize m.units / Magnitude.unitsPerOne = k at h hd
      obtain rfl : Number.signed negative k = n := Option.some.inj h
      rw [Number.natAbs_signed]
      exact ⟨rfl, hd.symm⟩
    · contradiction
  · rintro ⟨hn, hu⟩
    rw [hu, Nat.mul_mod_left, if_pos rfl, Nat.mul_div_cancel _ Magnitude.unitsPerOne_pos]
    exact congrArg some hn.symm

end Binary64

namespace Magnitude

theorem eq_zero {m : Magnitude} (h : m.significand = 0) : m = zero :=
  units_injective ((units_eq_zero_iff.mpr h).trans (units_eq_zero_iff.mpr rfl).symm)

end Magnitude

namespace Number

open Numeral

theorem readFloat?_positional (negative : Bool) (d : Decimal) :
    readFloat? ((positional negative d.digits d.places).toText wireWords) =
      some (Binary64.ofDecimal negative d.coefficient d.exponent) := by
  have hv := Digits.valueOf_append_zeros (List.replicate (-d.places).toNat 0 ++ d.digits)
    (d.places - d.digits.length).toNat
  have hl := Binary64.ofDecimal_digits negative d (d.places - d.digits.length).toNat
  rw [Digits.valueOf_zeros_append] at hv
  simp only [positional, readFloat?_decimal, fractionDigits, exponentValue, Binary64.ofDecimal_ofList,
    List.take_append_drop, hv, List.length_drop, List.length_append, List.length_replicate]
  rw [← hl]
  congr 2
  omega

theorem exponentValue_exponentOf (e : Int) : exponentValue (some (exponentOf e)) = e := by
  have hd : (exponentOf e).digits.toNat = e.natAbs := by
    rw [exponentOf]
    dsimp only
    split
    · exact (Digits.isDecimalOf_ofNat _).1
    · exact (Digits.isDecimalOf_ofNat _).1
  rw [exponentValue, hd]
  exact signed_natAbs e

theorem readFloat?_scientific (negative : Bool) (d : Decimal) :
    readFloat? ((scientific negative d.digits d.places).toText wireWords) =
      some (Binary64.ofDecimal negative d.coefficient d.exponent) := by
  have hl := Binary64.ofDecimal_digits negative d
  simp only [scientific, readFloat?_decimal, exponentValue_exponentOf]
  -- No digits at all are shown as a zero, and one digit without a point.
  match hd : d.digits with
  | [] =>
    have hs : d.places - 1 - ([] : List (Fin 10)).length = d.places - ([] : List (Fin 10)).length - (1 : Nat) := by
      simp only [List.length_nil]
      omega
    rw [hd] at hl
    rw [← hl 1, ← hs]
    rfl
  | [a] =>
    rw [hd] at hl
    rw [← hl 0, Nat.pow_zero, Nat.mul_one]
    rfl
  | a :: b :: ds =>
    have hs : d.places - 1 - (b :: ds).length = d.places - (a :: b :: ds).length - (0 : Nat) := by
      simp only [List.length_cons]
      omega
    rw [hd] at hl
    rw [← hl 0, Nat.pow_zero, Nat.mul_one, ← hs]
    rfl

/-- A decimal is read as the float that it is rounded to, wherever its point is put. -/
theorem readFloat?_ofDecimal (negative : Bool) (d : Decimal) :
    readFloat? ((Numeral.ofDecimal negative d).toText wireWords) =
      some (Binary64.ofDecimal negative d.coefficient d.exponent) := by
  rw [Numeral.ofDecimal]
  split
  · exact readFloat?_positional negative d
  · exact readFloat?_scientific negative d

theorem readFloat?_ofInt (n : Int) :
    readFloat? ((ofInt n).toText wireWords) = some (Binary64.ofDecimal (n < 0) n.natAbs 0) := by
  have hv : Digits.valueOf (Digits.ofNat n.natAbs).toList = n.natAbs := (Digits.isDecimalOf_ofNat _).1
  rw [ofInt, readFloat?_decimal, fractionDigits, List.append_nil, hv]
  rfl

/-- A float is read back from the numeral that shows it. -/
theorem readFloat?_ofBinary64 (x : Binary64) : readFloat? ((ofBinary64 x).toText wireWords) = some x := by
  cases x with
  | nan => exact readFloat?_nan
  | infinite negative => exact readFloat?_infinite negative
  | finite negative m =>
    rw [ofBinary64]
    split
    · rename_i h0
      rw [readFloat?_decimal, Magnitude.eq_zero h0]
      exact congrArg some (Binary64.ofDecimal_zero negative _)
    · rename_i h0
      rw [readFloat?_ofDecimal]
      exact congrArg some (Binary64.ofDecimal_sign (Magnitude.readsBack_shortest h0) negative)

/-- A float that is not zero is read back from its numeral on the wire, a whole one too. -/
theorem readFloat?_ofFloat {x : Binary64} (hx : x.isZero = false) :
    readFloat? ((ofFloat x).toText wireWords) = some x := by
  rw [ofFloat]
  split
  · rename_i n hn
    split
    · obtain ⟨negative, m, rfl⟩ := Binary64.eq_finite_of_toInt? hn
      obtain ⟨hs, hm⟩ := Binary64.toInt?_eq_some_iff.mp hn
      have h0 : m.significand ≠ 0 := of_decide_eq_false hx
      have hn0 : n ≠ 0 := by
        rintro rfl
        rw [Int.natAbs_zero, Nat.zero_mul] at hm
        exact h0 (Magnitude.units_eq_zero_iff.mp hm)
      have hneg : (n < 0 : Bool) = negative := by
        rw [hs] at hn0 ⊢
        exact signed_lt_zero hn0
      rw [readFloat?_ofInt, hneg, Binary64.ofDecimal_whole negative h0 hm]
    · exact readFloat?_ofBinary64 x
  · exact readFloat?_ofBinary64 x

/-- Either zero is a plain zero on the wire. -/
theorem ofFloat_of_isZero {x : Binary64} (hx : x.isZero = true) : ofFloat x = ofInt 0 := by
  cases x with
  | finite negative m =>
    have h0 : m.significand = 0 := of_decide_eq_true hx
    have hn : (Binary64.finite negative m).toInt? = some 0 := by
      rw [Binary64.toInt?_eq_some_iff, Magnitude.units_eq_zero_iff.mpr h0, Int.natAbs_zero, Nat.zero_mul]
      cases negative <;> exact ⟨rfl, rfl⟩
    rw [ofFloat, hn]
    rfl
  | nan => contradiction
  | infinite _ => contradiction

/-- What is read from the numeral of a float has that numeral. -/
theorem exists_readFloat?_ofFloat (x : Binary64) :
    ∃ y, readFloat? ((ofFloat x).toText wireWords) = some y ∧ ofFloat y = ofFloat x := by
  cases hx : x.isZero with
  | false => exact ⟨x, readFloat?_ofFloat hx, rfl⟩
  | true =>
    refine ⟨.finite false .zero, ?_, (ofFloat_of_isZero rfl).trans (ofFloat_of_isZero hx).symm⟩
    rw [ofFloat_of_isZero hx, readFloat?_ofInt, Int.natAbs_zero, Binary64.ofDecimal_zero]
    rfl

end Number

end FilterQuery
