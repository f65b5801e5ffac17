import FilterQuery.Number.Binary64

namespace FilterQuery

/-- `coefficient * 10 ^ exponent`. -/
structure Decimal where
  coefficient : Nat
  exponent : Int
deriving DecidableEq, Repr

namespace Decimal

/-- The digits before the decimal point, or less the zeros that follow it at once. -/
def places (d : Decimal) : Int := d.exponent + Digits.count d.coefficient

/-- The digits, less the zeros at their end: a neighbour on a grid can be a power of ten. -/
def digits (d : Decimal) : List (Fin 10) :=
  ((Digits.ofNat d.coefficient).toList.reverse.dropWhile (· = 0)).reverse

def ReadsBack (d : Decimal) (m : Magnitude) : Prop :=
  Binary64.ofDecimal false d.coefficient d.exponent = .finite false m

instance (d : Decimal) (m : Magnitude) : Decidable (d.ReadsBack m) :=
  inferInstanceAs (Decidable (_ = _))

end Decimal

namespace Magnitude

/-- The places of the decimal point: the magnitude lies from `10 ^ (places - 1)` up to `10 ^ places`. The
least magnitude has its first digit at the 324th place, so a scale of 10^350 keeps the leading digits. -/
def places (m : Magnitude) : Int :=
  Int.ofNat (Digits.count (m.units * Nat.pow 10 350 / unitsPerOne)) - 350

/-- The magnitude as a quotient of grid points `10 ^ exponent`. -/
def onGrid (m : Magnitude) (exponent : Int) : Nat × Nat :=
  if exponent < 0 then (m.units * Nat.pow 10 exponent.natAbs, unitsPerOne)
  else (m.units, unitsPerOne * Nat.pow 10 exponent.natAbs)

/-- The grid points next to the magnitude, the nearer first; of equally near ones the even. -/
def neighbours (m : Magnitude) (exponent : Int) : List Decimal :=
  let (n, d) := m.onGrid exponent
  let below := n / d
  let near := roundHalfEven n d
  [⟨near, exponent⟩, ⟨if near = below then below + 1 else below, exponent⟩]

/-- All digits of a magnitude: a unit is 5^1074 times 10^-1074. -/
def exact (m : Magnitude) : Decimal := ⟨m.units * Nat.pow 5 1074, -1074⟩

/-- The shortest decimal among those with the given counts of digits that reads back. -/
def shortestOf (m : Magnitude) (counts : List Nat) : Option Decimal :=
  counts.findSome? fun k : Nat => (m.neighbours (m.places - k)).find? (·.ReadsBack m)

/-- Seventeen digits tell any two floats apart, so the exact digits are never needed. -/
def shortest (m : Magnitude) : Decimal :=
  (m.shortestOf [1, 2, 3, 4, 5, 6, 7, 8, 9, 10, 11, 12, 13, 14, 15, 16, 17]).getD m.exact

end Magnitude

end FilterQuery
