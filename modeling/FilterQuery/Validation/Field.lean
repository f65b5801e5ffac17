import FilterQuery.Number.Reader
import FilterQuery.Validation.Issue
import FilterQuery.Text.Blank

namespace FilterQuery.Validation

def faulty {α : Type} (problem : Problem) : Except Problem α := .error problem

/-- A text that can be written in a byte form without surrogates. -/
def readable (t : Text) : Except Problem Text :=
  if t.any CodePoint.isSurrogate then faulty .notUnicode else .ok t

def text : Value → Except Problem Text
  | .text t => .ok t
  | _ => faulty .notText

/-- A text of at least one code point. -/
def nonemptyText (v : Value) : Except Problem Text := do
  let t ← readable (← text v)
  if t.isEmpty then faulty .tooShort else return t

def trueWords : List Text := ["1", "t", "true", "y", "yes", "on"]

def falseWords : List Text := ["0", "f", "false", "n", "no", "off"]

/-- The words count in any case. -/
def boolOfText (t : Text) : Except Problem Bool := do
  let word := Text.toAsciiLower (← readable t)
  if falseWords.contains word then return false
  else if trueWords.contains word then return true
  else faulty .unreadableBool

/-- Whole numbers that 64 bits can hold. -/
def isInt64 (n : Int) : Bool := -Int.pow 2 63 ≤ n && n < Int.pow 2 63

def boolOfInt (n : Int) : Except Problem Bool :=
  if !isInt64 n then faulty .notBool
  else if n = 0 then .ok false
  else if n = 1 then .ok true
  else faulty .unreadableBool

def bool : Value → Except Problem Bool
  | .bool b => .ok b
  | .text t => boolOfText t
  | .int n => boolOfInt n
  | .float x =>
    match x.toInt? with
    | some n => if n = -Int.pow 2 63 then faulty .notBool else boolOfInt n
    | none => faulty .notBool
  | _ => faulty .notBool

/-- A minus sign or none, and digits without needless zeros in front. Too many digits are reported as such
whatever follows them. -/
def strictInt (t : Text) : Except Problem Int :=
  let (negative, rest) := Numeral.readSign t
  match Digits.span rest with
  | ([], _) => faulty .unreadableInt
  | (d :: ds, rest) =>
    if d = 0 && !ds.isEmpty then faulty .unreadableInt
    else if Number.digitLimit < (d :: ds).length then faulty .longInt
    else if rest.isEmpty then .ok (Number.signed negative (Digits.valueOf (d :: ds)))
    else faulty .unreadableInt

/-- The text after a zero less the zeros and underscores that follow. One zero stays before a point, and
before the end whatever stands there; else a digit goes on, or a minus sign. -/
def dropZeros (last : CodePoint) : Text → Option Text
  | [] => some [last]
  | c :: rest =>
    if c = '0' ∨ c = '_' then dropZeros c rest
    else if c = '.' then some (last :: c :: rest)
    else if c.isAsciiDigit ∨ c = '-' then some (c :: rest)
    else none

/-- Needless zeros in front go; only a digit may begin the text. -/
def dropLeadingZeros? : Text → Option Text
  | [] => none
  | c :: rest =>
    if c = '0' then dropZeros c rest
    else if c.isAsciiDigit then some (c :: rest)
    else none

/-- Needless zeros go after a sign too, and with them a plus sign. -/
def dropSignedZeros? (t : Text) : Option Text :=
  match Text.after? '-' t with
  | some rest => (dropLeadingZeros? rest).map fun digits => (CodePoint.ofChar '-') :: digits
  | none => dropLeadingZeros? ((Text.after? '+' t).getD t)

/-- A fraction of zeros goes. -/
def dropZeroFraction (t : Text) : Text :=
  match t.dropWhile (· ≠ CodePoint.ofChar '.') with
  | _ :: d :: ds =>
    if (d :: ds).all (· = CodePoint.ofChar '0') then t.takeWhile (· ≠ CodePoint.ofChar '.') else t
  | _ => t

/-- Single underscores inside the text go. -/
def dropUnderscores (t : Text) : Text :=
  if t.head? = some (CodePoint.ofChar '_') ∨ t.getLast? = some (CodePoint.ofChar '_') ∨
      Text.occursIn "__" t then t
  else t.filter (· ≠ CodePoint.ofChar '_')

/-- The strict form of a looser text: white space around, a plus sign, zeros in front, underscores, a fraction
of zeros. -/
def tidyInt? (t : Text) : Option Text :=
  (dropSignedZeros? (Text.trim CodePoint.isWhiteSpace t)).map fun t => dropUnderscores (dropZeroFraction t)

/-- A whole number in the strict form, or in the looser one, where too many digits are no fault of their own. -/
def intOfText (t : Text) : Except Problem Int := do
  match strictInt (← readable t) with
  | .error .unreadableInt =>
    match ((tidyInt? t).map strictInt) with
    | some (.ok n) => return n
    | _ => faulty .unreadableInt
  | read => read

def intOfFloat : Binary64 → Except Problem Int
  | .finite negative m =>
    match (Binary64.finite negative m).toInt? with
    | some n => if isInt64 n && n ≠ -Int.pow 2 63 then .ok n else faulty .longInt
    | none => faulty .fractionalInt
  | _ => faulty .notFinite

def int : Value → Except Problem Int
  | .int n => .ok n
  | .bool b => .ok (if b then 1 else 0)
  | .text t => intOfText t
  | .float x => intOfFloat x
  | _ => faulty .notInt

/-- A whole number that is not negative. -/
def count (v : Value) : Except Problem Int := do
  let n ← int v
  if n < 0 then faulty .negative else return n

end FilterQuery.Validation
