import FilterQuery.Json.Reader
import FilterQuery.Value.Display

namespace FilterQuery

namespace Json

/-- What is wrong, in words. -/
def Complaint.message : Complaint → Text
  | byteOrderMark => "Unexpected UTF-8 BOM (decode using utf-8-sig)"
  | extraData => "Extra data"
  | expectingValue => "Expecting value"
  | expectingName => "Expecting property name enclosed in double quotes"
  | expectingColon => "Expecting ':' delimiter"
  | expectingComma => "Expecting ',' delimiter"
  | unterminatedString => "Unterminated string starting at"
  | invalidControl => "Invalid control character at"
  | invalidEscape => "Invalid \\escape"
  | invalidUnicodeEscape => "Invalid \\uXXXX escape"
  | longNumber digits => "Number of " ++ Text.ofNat digits ++ " digits"

/-- Where it is, in words. -/
def Position.message (p : Position) : Text :=
  "line " ++ Text.ofNat p.line ++ " column " ++ Text.ofNat p.column ++
    " (char " ++ Text.ofNat p.offset ++ ")"

end Json

end FilterQuery
