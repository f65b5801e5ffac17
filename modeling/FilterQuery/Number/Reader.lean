import FilterQuery.Number.Binary64
import FilterQuery.Text.Blank
import FilterQuery.Text.Digit

namespace FilterQuery.Number

/-- Texts of more digits are not read as whole numbers, nor are whole numbers of more digits written. -/
def digitLimit : Nat := 4300

/-- Digits of any script become ASCII digits, and white space around goes. -/
def plain (t : Text) : Text :=
  Text.trim CodePoint.isWhiteSpace (t.map fun c =>
    match c.decimalValue? with
    | some d => CodePoint.ofDigit d
    | none => c)

def startsWithDigit : Text → Bool
  | [] => false
  | c :: _ => c.isAsciiDigit

/-- The text without its underscores, each of which must stand between two digits. The flag says whether a
digit came just before. -/
def dropUnderscores? (afterDigit : Bool) : Text → Option Text
  | [] => some []
  | c :: rest =>
    if c = '_' then
      if afterDigit && startsWithDigit rest then dropUnderscores? false rest else none
    else (dropUnderscores? c.isAsciiDigit rest).map (c :: ·)

/-- One sign in front, and the rest. -/
def splitSign : Text → Bool × Text
  | [] => (false, [])
  | c :: rest => if c = '-' then (true, rest) else if c = '+' then (false, rest) else (false, c :: rest)

def signed (negative : Bool) (n : Nat) : Int := if negative then -Int.ofNat n else Int.ofNat n

/-- The whole number that a plain text without underscores spells. -/
def wholeNumber? (t : Text) : Option Int :=
  let (negative, rest) := splitSign t
  match Digits.read? rest with
  | some (digits, []) =>
    if digits.toList.length ≤ digitLimit then some (signed negative digits.toNat) else none
  | _ => none

def readInt? (t : Text) : Option Int := (dropUnderscores? false (plain t)).bind wholeNumber?

/-- The power of ten at the end of a number, zero if there is none. -/
def powerOfTen? : Text → Option Int
  | [] => some 0
  | c :: rest =>
    if c = 'e' ∨ c = 'E' then
      let (negative, rest) := splitSign rest
      match Digits.read? rest with
      | some (digits, []) => some (signed negative digits.toNat)
      | _ => none
    else none

/-- The float that an unsigned text of digits spells: digits before the point or after it, or both. -/
def unsignedFloat? (negative : Bool) (t : Text) : Option Binary64 := do
  let (whole, rest) := Digits.span t
  let (fraction, rest) := match Text.after? '.' rest with
    | some rest => Digits.span rest
    | none => ([], rest)
  if whole.isEmpty && fraction.isEmpty then none
  else
    let power ← powerOfTen? rest
    return Binary64.ofDecimal negative (Digits.valueOf (whole ++ fraction)) (power - fraction.length)

/-- The float that a plain text without underscores spells. -/
def float? (t : Text) : Option Binary64 :=
  let (negative, rest) := splitSign t
  let word := Text.toAsciiLower rest
  if word = Text.ofString "inf" ∨ word = Text.ofString "infinity" then some (.infinite negative)
  else if word = Text.ofString "nan" then some .nan
  else unsignedFloat? negative rest

def readFloat? (t : Text) : Option Binary64 := (dropUnderscores? false (plain t)).bind float?

end FilterQuery.Number
