import FilterQuery.Text.Basic

namespace FilterQuery

/-- At least one decimal digit. -/
structure Digits where
  first : Fin 10
  rest : List (Fin 10)
deriving DecidableEq, Repr

namespace Digits

def toList (d : Digits) : List (Fin 10) := d.first :: d.rest

/-- The digits of a list; no digits at all read as a zero. -/
def ofList : List (Fin 10) → Digits
  | [] => ⟨0, []⟩
  | d :: ds => ⟨d, ds⟩

def toText (d : Digits) : Text := d.toList.map CodePoint.ofDigit

def valueOf (ds : List (Fin 10)) : Nat := ds.foldl (fun n d => n * 10 + d.val) 0

def toNat (d : Digits) : Nat := valueOf d.toList

/-- The digits of a number, put in front of digits already found. -/
def prepend (n : Nat) (found : List (Fin 10)) : List (Fin 10) :=
  if h : n < 10 then ⟨n, h⟩ :: found
  else prepend (n / 10) (⟨n % 10, Nat.mod_lt n (by decide)⟩ :: found)
termination_by n

def ofNat (n : Nat) : Digits := ofList (prepend n [])

/-- The number of digits of a number. -/
def count (n : Nat) : Nat := (ofNat n).toList.length

/-- The leading ASCII digits of a text, and the rest. -/
def span : Text → List (Fin 10) × Text
  | [] => ([], [])
  | c :: rest =>
    match c.digit? with
    | some d => (d :: (span rest).1, (span rest).2)
    | none => ([], c :: rest)

/-- Digits end where none follows. -/
theorem span_append (ds : List (Fin 10)) {rest : Text} (h : rest.head?.all fun c => c.digit?.isNone) :
    span (ds.map CodePoint.ofDigit ++ rest) = (ds, rest) := by
  induction ds with
  | nil =>
    cases rest with
    | nil => rfl
    | cons c rest =>
      simp only [List.head?_cons, Option.all_some, Option.isNone_iff_eq_none] at h
      simp [span, h]
  | cons d ds ih => simp [span, ih]

/-- As many digits as the text begins with, if it begins with any. -/
def read? (t : Text) : Option (Digits × Text) :=
  match span t with
  | ([], _) => none
  | (d :: ds, rest) => some (⟨d, ds⟩, rest)

theorem read?_toText (d : Digits) {rest : Text} (h : rest.head?.all fun c => c.digit?.isNone) :
    read? (d.toText ++ rest) = some (d, rest) := by
  rw [read?, toText, span_append _ h]
  rfl

end Digits

/-- A power of ten by its sign and digits. -/
structure Exponent where
  negative : Bool
  digits : Digits
deriving DecidableEq, Repr

inductive Numeral where
  | nan
  | infinite (negative : Bool)
  | decimal (negative : Bool) (whole : Digits) (fraction : Option Digits) (exponent : Option Exponent)
deriving DecidableEq, Repr

namespace Numeral

/-- The words for what digits cannot say. -/
structure Words where
  nan : Text
  infinity : Text

/-- On the wire. -/
def wireWords : Words := ⟨"NaN", "Infinity"⟩

/-- In messages. -/
def shownWords : Words := ⟨"nan", "inf"⟩

def sign (negative : Bool) : Text := if negative then "-" else []

def fractionText : Option Digits → Text
  | none => []
  | some ds => (CodePoint.ofChar '.') :: ds.toText

def exponentText : Option Exponent → Text
  | none => []
  | some e => (CodePoint.ofChar 'e') :: (if e.negative then '-' else '+') :: e.digits.toText

def toText (words : Words) : Numeral → Text
  | nan => words.nan
  | infinite negative => sign negative ++ words.infinity
  | decimal negative whole fraction exponent =>
    sign negative ++ whole.toText ++ fractionText fraction ++ exponentText exponent

def ofInt (n : Int) : Numeral := decimal (n < 0) (Digits.ofNat n.natAbs) none none

/-- A sign in front of a text, and the rest. -/
def readSign (t : Text) : Bool × Text :=
  match t with
  | c :: rest => if c = '-' then (true, rest) else (false, c :: rest)
  | [] => (false, [])

def readFraction? (t : Text) : Option (Option Digits × Text) :=
  match Text.after? '.' t with
  | none => some (none, t)
  | some rest => (Digits.read? rest).map fun (ds, rest) => (some ds, rest)

def readExponent? (t : Text) : Option (Option Exponent) :=
  match t with
  | [] => some none
  | e :: mark :: rest =>
    if e = 'e' ∧ (mark = '+' ∨ mark = '-') then
      match Digits.read? rest with
      | some (ds, []) => some (some ⟨mark = '-', ds⟩)
      | _ => none
    else none
  | _ => none

/-- The numeral that a whole text is, on the wire. -/
def read? (t : Text) : Option Numeral :=
  if t = wireWords.nan then some nan
  else
    let (negative, rest) := readSign t
    if rest = wireWords.infinity then some (infinite negative)
    else do
      let (whole, rest) ← Digits.read? rest
      let (fraction, rest) ← readFraction? rest
      let exponent ← readExponent? rest
      return decimal negative whole fraction exponent

end Numeral

end FilterQuery
