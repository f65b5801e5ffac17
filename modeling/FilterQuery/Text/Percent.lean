import FilterQuery.Text.Utf8

namespace FilterQuery

/-- Code points that stand for themselves. -/
def CodePoint.isUnreserved (c : CodePoint) : Bool :=
  c.isAsciiUpper || c.isAsciiLower || c.isAsciiDigit ||
    c = '-' || c = '_' || c = '.' || c = '~'

/-- A byte as a percent sign and two digits. -/
def Byte.percent (b : Byte) : Text :=
  ['%', CodePoint.ofHexUpper ⟨b.val / 16, by omega⟩, CodePoint.ofHexUpper ⟨b.val % 16, by omega⟩]

/-- One code point as it stands in an escaped text. -/
def CodePoint.escape (c : CodePoint) : Text :=
  if c.isUnreserved then [c] else c.utf8.flatMap Byte.percent

namespace Text

/-- A field name or a text value made safe to stand inside a filter expression. -/
def escape (t : Text) : Text := t.flatMap CodePoint.escape

/-- The value of a capital hexadecimal digit. -/
def upperHexValue? (c : CodePoint) : Option (Fin 16) :=
  if c.isAsciiLower then none else c.hexValue?

/-- The bytes that an escaped text stands for. A percent sign takes two capital hexadecimal digits, and
nothing else that is not unreserved may stand. -/
def escapedBytes? : Text → Option (List Byte)
  | [] => some []
  | c :: rest =>
    if c = '%' then
      match rest with
      | a :: b :: rest => do
        let high ← upperHexValue? a
        let low ← upperHexValue? b
        return ⟨high.val * 16 + low.val, by omega⟩ :: (← escapedBytes? rest)
      | _ => none
    else if c.isUnreserved then do
      if h : c.val < 256 then return ⟨c.val, h⟩ :: (← escapedBytes? rest) else none
    else none

/-- The text that an escaped text stands for. -/
def unescape? (t : Text) : Option Text := (escapedBytes? t).bind Utf8.decode?

end Text

end FilterQuery
