import FilterQuery.Number.Numeral

namespace FilterQuery

/-- A finite magnitude, `significand * 2 ^ shift` units of 2^-1074. -/
structure Magnitude where
  significand : Nat
  shift : Nat
  significand_lt : significand < Nat.pow 2 53
  shift_le : shift ≤ 2045
  normal : shift = 0 ∨ Nat.pow 2 52 ≤ significand
deriving DecidableEq, Repr

namespace Magnitude

def zero : Magnitude := ⟨0, 0, by decide, by decide, .inl rfl⟩

/-- How many units of 2^-1074. -/
def units (m : Magnitude) : Nat := m.significand * Nat.pow 2 m.shift

/-- The units in a whole. -/
def unitsPerOne : Nat := Nat.pow 2 1074

def of? (significand shift : Nat) : Option Magnitude :=
  if h : significand < Nat.pow 2 53 ∧ shift ≤ 2045 ∧ (shift = 0 ∨ Nat.pow 2 52 ≤ significand) then
    some ⟨significand, shift, h.1, h.2.1, h.2.2⟩
  else none

/-- A quotient to the nearest whole, a half to the even one. -/
def roundHalfEven (n d : Nat) : Nat :=
  let q := n / d
  let r := n % d
  if 2 * r < d then q else if d < 2 * r then q + 1 else q + q % 2

/-- The magnitude nearest to a quotient of units; none if that is past the largest. -/
def ofRatio? (n d : Nat) : Option Magnitude :=
  let shift := (n / d).log2 - 52
  let significand := roundHalfEven n (d * Nat.pow 2 shift)
  if significand = Nat.pow 2 53 then of? (Nat.pow 2 52) (shift + 1) else of? significand shift

end Magnitude

/-- A binary floating point number of 64 bits. -/
inductive Binary64 where
  | nan
  | infinite (negative : Bool)
  | finite (negative : Bool) (magnitude : Magnitude)
deriving DecidableEq, Repr

namespace Binary64

/-- The number nearest to a signed quotient of units. -/
def ofUnits (negative : Bool) (n d : Nat) : Binary64 :=
  match Magnitude.ofRatio? n d with
  | some m => finite negative m
  | none => infinite negative

/-- The number nearest to `coefficient * 10 ^ exponent`. Past 310 places before the point nothing is
finite, and 330 places after it nothing is left, so no power beyond those is ever taken. -/
def ofDecimal (negative : Bool) (coefficient : Nat) (exponent : Int) : Binary64 :=
  let places := exponent + Digits.count coefficient
  if coefficient = 0 then finite negative .zero
  else if places > 310 then infinite negative
  else if places < -330 then finite negative .zero
  else if exponent < 0 then
    ofUnits negative (coefficient * Magnitude.unitsPerOne) (Nat.pow 10 exponent.natAbs)
  else ofUnits negative (coefficient * Nat.pow 10 exponent.natAbs * Magnitude.unitsPerOne) 1

/-- The whole number that a float is, if it is one. -/
def toInt? : Binary64 → Option Int
  | finite negative m =>
    if m.units % Magnitude.unitsPerOne = 0 then
      some (if negative then -Int.ofNat (m.units / Magnitude.unitsPerOne)
        else Int.ofNat (m.units / Magnitude.unitsPerOne))
    else none
  | _ => none

def isZero : Binary64 → Bool
  | finite _ m => m.significand = 0
  | _ => false

/-- Equality of numbers: no nan equals anything, and the two zeros are one number. -/
def equals : Binary64 → Binary64 → Bool
  | infinite a, infinite b => a = b
  | finite a m, finite b n => m = n ∧ (a = b ∨ m.significand = 0)
  | _, _ => false

end Binary64

end FilterQuery
