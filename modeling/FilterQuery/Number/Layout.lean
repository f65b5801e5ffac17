import FilterQuery.Number.Shortest

namespace FilterQuery.Numeral

/-- Digits with a point after the given count of them, zeros filling either side. -/
def positional (negative : Bool) (digits : List (Fin 10)) (places : Int) : Numeral :=
  let padded := List.replicate (-places).toNat 0 ++ digits ++
    List.replicate (places - digits.length).toNat 0
  decimal negative (Digits.ofList (padded.take places.toNat))
    (some (Digits.ofList (padded.drop places.toNat))) none

/-- A power of ten with at least two digits. -/
def exponentOf (e : Int) : Exponent :=
  ⟨e < 0, if e.natAbs < 10 then ⟨0, (Digits.ofNat e.natAbs).toList⟩ else Digits.ofNat e.natAbs⟩

/-- The first digit, the others after a point, and a power of ten. -/
def scientific (negative : Bool) (digits : List (Fin 10)) (places : Int) : Numeral :=
  decimal negative (Digits.ofList (digits.take 1))
    (match digits.drop 1 with
      | [] => none
      | d :: ds => some ⟨d, ds⟩)
    (some (exponentOf (places - 1)))

def ofDecimal (negative : Bool) (d : Decimal) : Numeral :=
  if -4 < d.places ∧ d.places ≤ 16 then positional negative d.digits d.places
  else scientific negative d.digits d.places

/-- A float as messages show it: always with a point or a power of ten. -/
def ofBinary64 : Binary64 → Numeral
  | .nan => nan
  | .infinite negative => infinite negative
  | .finite negative m =>
    if m.significand = 0 then decimal negative ⟨0, []⟩ (some ⟨0, []⟩) none
    else ofDecimal negative m.shortest

/-- The least whole number that the wire does not spell out for a float. -/
def wholeLimit : Nat := Nat.pow 10 21

/-- A float on the wire. -/
def ofFloat (x : Binary64) : Numeral :=
  match x.toInt? with
  | some n => if n.natAbs < wholeLimit then ofInt n else ofBinary64 x
  | none => ofBinary64 x

end FilterQuery.Numeral
