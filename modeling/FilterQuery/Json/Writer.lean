import FilterQuery.Json.Basic
import FilterQuery.Value.Display

namespace FilterQuery

/-- Four hexadecimal digits after a backslash and a u. -/
def unicodeEscape (n : Nat) : Text := "\\u" ++ lowerHex 4 n

/-- One code point as it stands in a JSON string. -/
def CodePoint.inJson (c : CodePoint) : Text :=
  if c = '"' then "\\\""
  else if c = '\\' then "\\\\"
  else if c = '\n' then "\\n"
  else if c = '\r' then "\\r"
  else if c = '\t' then "\\t"
  else if c.val = 0x0C then "\\f"
  else if c.val = 0x08 then "\\b"
  else if 0x20 ≤ c.val ∧ c.val ≤ 0x7E then [c]
  else if c.val < 0x10000 then unicodeEscape c.val
  else unicodeEscape (0xD800 + (c.val - 0x10000) / 0x400) ++ unicodeEscape (0xDC00 + c.val % 0x400)

namespace Json

def quote (t : Text) : Text := "\"" ++ t.flatMap CodePoint.inJson ++ "\""

mutual

def toText : Json → Text
  | null => "null"
  | bool b => if b then "true" else "false"
  | int n => Text.ofInt n
  | float x => (Numeral.ofBinary64 x).toText Numeral.wireWords
  | text t => quote t
  | array items => "[" ++ Text.join ", " (itemTexts items) ++ "]"
  | object members => "\x7b" ++ Text.join ", " (memberTexts members) ++ "\x7d"

def itemTexts : List Json → List Text
  | [] => []
  | j :: js => toText j :: itemTexts js

def memberTexts : List (Text × Json) → List Text
  | [] => []
  | (name, j) :: rest => (quote name ++ ": " ++ toText j) :: memberTexts rest

end

mutual

/-- The document that a value is written as. Tuples are written as lists, and whole numbers of too many digits
not at all. -/
def ofValue? : Value → Option Json
  | .null => some null
  | .bool b => some (bool b)
  | .int n => if (Value.int n).isPrintable then some (int n) else none
  | .float x => some (float x)
  | .text t => some (text t)
  | .list items => (ofItems? items).map array
  | .tuple items => (ofItems? items).map array
  | .dict entries => (ofEntries? entries).map object
  | .date _ => none
  | .dateTime _ => none
  | .order _ => none

def ofItems? : List Value → Option (List Json)
  | [] => some []
  | v :: vs =>
    match ofValue? v, ofItems? vs with
    | some j, some js => some (j :: js)
    | _, _ => none

def ofEntries? : List (Value × Value) → Option (List (Text × Json))
  | [] => some []
  | (k, v) :: rest =>
    match k.text?, ofValue? v, ofEntries? rest with
    | some name, some j, some members => some ((name, j) :: members)
    | _, _, _ => none

end

end Json

/-- The JSON text of a value. -/
def Value.jsonText? (v : Value) : Option Text := (Json.ofValue? v).map Json.toText

end FilterQuery
