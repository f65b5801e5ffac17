import FilterQuery.Text.Printable

namespace FilterQuery

/-- The `width` last hexadecimal digits of a number, in small letters. -/
def lowerHex : Nat → Nat → Text
  | 0, _ => []
  | width + 1, n => lowerHex width (n / 16) ++ [CodePoint.ofHexLower ⟨n % 16, by omega⟩]

/-- One code point as it stands between marks. -/
def CodePoint.quoted (mark c : CodePoint) : Text :=
  if c = mark || c = '\\' then ['\\', c]
  else if c = '\t' then ['\\', 't']
  else if c = '\n' then ['\\', 'n']
  else if c = '\r' then ['\\', 'r']
  else if c.isPrintable then [c]
  else if c.val < 0x100 then "\\x" ++ lowerHex 2 c.val
  else if c.val < 0x10000 then "\\u" ++ lowerHex 4 c.val
  else "\\U" ++ lowerHex 8 c.val

namespace Text

/-- The mark that needs fewer backslashes, the single one if both need some or none. -/
def quotationMark (t : Text) : CodePoint :=
  if t.contains (CodePoint.ofChar '\'') && !t.contains (CodePoint.ofChar '"') then '"' else '\''

def quoted (t : Text) : Text :=
  quotationMark t :: t.flatMap (CodePoint.quoted (quotationMark t)) ++ [quotationMark t]

end Text

end FilterQuery
