import FilterQuery.Json.Basic
import FilterQuery.Number.Reader

namespace FilterQuery

namespace Json

inductive Complaint where
  | byteOrderMark
  | extraData
  | expectingValue
  | expectingName
  | expectingColon
  | expectingComma
  | unterminatedString
  | invalidControl
  | invalidEscape
  | invalidUnicodeEscape
  | longNumber (digits : Nat)
deriving DecidableEq, Repr

/-- What is wrong, and the text from the place of it on. -/
structure Fault where
  complaint : Complaint
  rest : Text
deriving DecidableEq, Repr

def isBlank (c : CodePoint) : Bool := c = ' ' || c = '\t' || c = '\n' || c = '\r'

def skipBlank (t : Text) : Text := t.dropWhile isBlank

/-- The number that four hexadecimal digits spell. -/
def hex4? (a b c d : CodePoint) : Option (Fin 0x10000) := do
  let a ← a.hexValue?
  let b ← b.hexValue?
  let c ← c.hexValue?
  let d ← d.hexValue?
  return ⟨((a.val * 16 + b.val) * 16 + c.val) * 16 + d.val, by omega⟩

/-- A unit that stands alone, surrogate or not. -/
def loneUnit (n : Fin 0x10000) : CodePoint := ⟨n.val, by omega⟩

def isHighUnit (n : Fin 0x10000) : Bool := 0xD800 ≤ n.val && n.val ≤ 0xDBFF

def isLowUnit (n : Fin 0x10000) : Bool := 0xDC00 ≤ n.val && n.val ≤ 0xDFFF

/-- The code point of a high and a low surrogate. -/
def joinUnits (high low : Fin 0x10000) : CodePoint :=
  ⟨0x10000 + high.val % 0x400 * 0x400 + low.val % 0x400, by omega⟩

/-- The code point that a letter after a backslash names. -/
def escaped? (c : CodePoint) : Option CodePoint :=
  if c = '"' ∨ c = '\\' ∨ c = '/' then some c
  else if c = 'b' then some ⟨0x08, by decide⟩
  else if c = 'f' then some ⟨0x0C, by decide⟩
  else if c = 'n' then some '\n'
  else if c = 'r' then some '\r'
  else if c = 't' then some '\t'
  else none

/-- A second unit at the front of a text, if a backslash and a u begin one that is not the text's end. -/
def secondUnit? : Text → Option (Except Fault (Fin 0x10000))
  | slash :: u :: a :: b :: c :: d :: e :: rest =>
    if slash = '\\' ∧ u = 'u' then
      match hex4? a b c d with
      | some n => some (.ok n)
      | none => some (.error ⟨.invalidUnicodeEscape, u :: a :: b :: c :: d :: e :: rest⟩)
    else none
  | _ => none

/-- A code point before what was read of a string. -/
def consText (c : CodePoint) (read : Except Fault (Text × Text)) : Except Fault (Text × Text) :=
  read.map fun (t, rest) => (c :: t, rest)

/-- The text up to the closing quote and the rest after it; `start` is the text from the opening quote on. -/
def readString (start : Text) : Text → Except Fault (Text × Text)
  | [] => .error ⟨.unterminatedString, start⟩
  | c :: rest =>
    if c = '"' then .ok ([], rest)
    else if c.val < 0x20 then .error ⟨.invalidControl, c :: rest⟩
    else if c ≠ '\\' then consText c (readString start rest)
    else match rest with
    | [] => .error ⟨.unterminatedString, start⟩
    | e :: rest₁ =>
      if e ≠ 'u' then
        match escaped? e with
        | some x => consText x (readString start rest₁)
        | none => .error ⟨.invalidEscape, c :: e :: rest₁⟩
      else match rest₁ with
      | h₁ :: h₂ :: h₃ :: h₄ :: next :: rest₂ =>
        match hex4? h₁ h₂ h₃ h₄ with
        | none => .error ⟨.invalidUnicodeEscape, e :: rest₁⟩
        | some high =>
          if isHighUnit high then
            match secondUnit? (next :: rest₂) with
            | some (.error fault) => .error fault
            | some (.ok low) =>
              if isLowUnit low then
                match rest₂ with
                | _ :: _ :: _ :: _ :: _ :: rest₃ => consText (joinUnits high low) (readString start rest₃)
                | _ => .error ⟨.unterminatedString, start⟩
              else consText (loneUnit high) (readString start (next :: rest₂))
            | none => consText (loneUnit high) (readString start (next :: rest₂))
          else consText (loneUnit high) (readString start (next :: rest₂))
      | _ => .error ⟨.invalidUnicodeEscape, e :: rest₁⟩

/-- The digits before the point: one zero, or digits of which the first is none. -/
def readWhole? : Text → Option (List (Fin 10) × Text)
  | [] => none
  | c :: rest =>
    match c.digit? with
    | none => none
    | some d => if d = 0 then some ([0], rest) else some (Digits.span (c :: rest))

/-- A point and digits, if both are there. -/
def readFraction (t : Text) : Option Digits × Text :=
  match (Text.after? '.' t).bind Digits.read? with
  | some (ds, rest) => (some ds, rest)
  | none => (none, t)

/-- A power of ten, if it is complete. -/
def readPower (t : Text) : Option Int × Text :=
  match t with
  | [] => (none, [])
  | e :: rest =>
    if e = 'e' ∨ e = 'E' then
      let (negative, rest) := Number.splitSign rest
      match Digits.read? rest with
      | some (ds, rest) => (some (Number.signed negative ds.toNat), rest)
      | none => (none, t)
    else (none, t)

/-- A number: a whole one unless a point or a power of ten belongs to it. -/
def readNumber (start : Text) : Except Fault (Json × Text) :=
  let (negative, unsigned) := Numeral.readSign start
  match readWhole? unsigned with
  | none => .error ⟨.expectingValue, start⟩
  | some (whole, rest) =>
    let (fraction, rest) := readFraction rest
    let (power, rest) := readPower rest
    match fraction, power with
    | none, none =>
      if Number.digitLimit < whole.length then .error ⟨.longNumber whole.length, start⟩
      else .ok (int (Number.signed negative (Digits.valueOf whole)), rest)
    | _, _ =>
      let decimals := (fraction.map Digits.toList).getD []
      .ok (float (Binary64.ofDecimal negative (Digits.valueOf (whole ++ decimals))
        (power.getD 0 - decimals.length)), rest)

/-- The words that stand for values. -/
def words : List (Text × Json) :=
  [("null", null), ("true", bool true), ("false", bool false), ("NaN", float .nan),
    ("Infinity", float (.infinite false)), ("-Infinity", float (.infinite true))]

/-- A word at the front of a text, and the rest. -/
def readWord? (t : Text) : Option (Json × Text) :=
  words.findSome? fun (word, value) =>
    if word.isPrefixOf t then some (value, t.drop word.length) else none

def expect (c : CodePoint) (complaint : Complaint) (t : Text) : Except Fault Text :=
  match Text.after? c t with
  | some rest => .ok rest
  | none => .error ⟨complaint, t⟩

mutual

/-- A value at the front of a text, and the rest. Of two calls, one inside the other, at least one takes a
code point, so fuel beyond twice the length of the text is never used up. -/
def readValue : Nat → Text → Except Fault (Json × Text)
  | 0, t => .error ⟨.expectingValue, t⟩
  | fuel + 1, t =>
    match t with
    | [] => .error ⟨.expectingValue, []⟩
    | c :: rest =>
      if c = '"' then (readString t rest).map fun (s, rest) => (text s, rest)
      else if c = '\x7b' then
        match Text.after? '\x7d' (skipBlank rest) with
        | some rest => .ok (object [], rest)
        | none => (readMembers fuel (skipBlank rest)).map fun (ms, rest) => (object ms, rest)
      else if c = '[' then
        match Text.after? ']' (skipBlank rest) with
        | some rest => .ok (array [], rest)
        | none => (readItems fuel (skipBlank rest)).map fun (js, rest) => (array js, rest)
      else match readWord? t with
      | some read => .ok read
      | none => readNumber t

/-- Members up to the closing brace, at least one. -/
def readMembers : Nat → Text → Except Fault (List (Text × Json) × Text)
  | 0, t => .error ⟨.expectingName, t⟩
  | fuel + 1, t => do
    let (name, rest) ← readString t (← expect '"' .expectingName t)
    let rest ← expect ':' .expectingColon (skipBlank rest)
    let (value, rest) ← readValue fuel (skipBlank rest)
    match Text.after? '\x7d' (skipBlank rest) with
    | some rest => return ([(name, value)], rest)
    | none =>
      let rest ← expect ',' .expectingComma (skipBlank rest)
      let (members, rest) ← readMembers fuel (skipBlank rest)
      return ((name, value) :: members, rest)

/-- Items up to the closing bracket, at least one. -/
def readItems : Nat → Text → Except Fault (List Json × Text)
  | 0, t => .error ⟨.expectingValue, t⟩
  | fuel + 1, t => do
    let (value, rest) ← readValue fuel t
    match Text.after? ']' (skipBlank rest) with
    | some rest => return ([value], rest)
    | none =>
      let rest ← expect ',' .expectingComma (skipBlank rest)
      let (items, rest) ← readItems fuel (skipBlank rest)
      return (value :: items, rest)

end

/-- The document that a whole text is. -/
def parse (t : Text) : Except Fault Json :=
  if t.head?.any (·.val = 0xFEFF) then .error ⟨.byteOrderMark, t⟩
  else do
    let (value, rest) ← readValue (2 * t.length + 1) (skipBlank t)
    match skipBlank rest with
    | [] => return value
    | rest => .error ⟨.extraData, rest⟩

/-- An offset in code points, and the line and the column of it, both counted from one. -/
structure Position where
  offset : Nat
  line : Nat
  column : Nat
deriving DecidableEq, Repr

/-- The place in a text where only `rest` is left. -/
def Position.ofRest (whole rest : Text) : Position :=
  let before := whole.take (whole.length - rest.length)
  ⟨before.length, before.count (CodePoint.ofChar '\n') + 1,
    (before.reverse.takeWhile (· ≠ CodePoint.ofChar '\n')).length + 1⟩

end Json

end FilterQuery
