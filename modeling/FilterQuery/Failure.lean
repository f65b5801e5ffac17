import FilterQuery.Filter.Error
import FilterQuery.Validation.Issue

namespace FilterQuery

/-- What an operation can fail with. A value of a kind that it cannot take, or without what it is asked for, is a
failure that has no more to say. -/
inductive Failure where
  | filter (error : FilterError)
  | invalid (issues : List Issue)
  | unsupportedHint (field datatype : Value)
  | longNumberRead (digits : Nat)
  | longNumberWritten
  | dateOutOfRange
  | unknownField (owner field : Text)
  | embeddedNul
  | unencodable (position : Nat) (surrogates : Text)
  | wrongKind
  | noSuchMember
  | readOnly

namespace Failure

/-- Whole numbers past the limit of digits, read or written. -/
def longNumberMessage (detail : Text) : Text :=
  "Exceeds the limit (" ++ Text.ofNat Number.digitLimit ++ " digits) for integer string conversion" ++
    detail ++ "; use sys.set_int_max_str_digits() to increase the limit"

/-- Surrogates in a row that stand for no bytes: one is shown, several are located. -/
def unencodableMessage (position : Nat) (surrogates : Text) : Text :=
  let place : Text := match surrogates with
    | [c] => " '\\u" ++ lowerHex 4 c.val ++ "' in position " ++ Text.ofNat position
    | _ => "s in position " ++ Text.ofNat position ++ "-" ++ Text.ofNat (position + surrogates.length - 1)
  "'utf-8' codec can't encode character" ++ place ++ ": surrogates not allowed"

/-- What a failure says, if it says more than its kind. -/
def message? : Failure → Option Text
  | filter error => some error.message
  | invalid issues => some (Text.join "; " (issues.map Issue.message))
  | unsupportedHint field datatype =>
    some ("Unsupported datatype for property " ++ FilterError.named field.plain ++ ": " ++ datatype.plain)
  | longNumberRead digits => some (longNumberMessage (": value has " ++ Text.ofNat digits ++ " digits"))
  | longNumberWritten => some (longNumberMessage [])
  | dateOutOfRange => some "date value out of range"
  | unknownField owner field => some ("\"" ++ owner ++ "\" object has no field \"" ++ field ++ "\"")
  | embeddedNul => some "embedded null byte"
  | unencodable position surrogates => some (unencodableMessage position surrogates)
  | wrongKind => none
  | noSuchMember => none
  | readOnly => none

/-- A failure whose message shows some values; if one of them cannot be written, that is the failure. -/
def showing (values : List Value) (failure : Failure) : Failure :=
  if values.all Value.isPrintable then failure else longNumberWritten

end Failure

namespace Value

/-- A value as text, unless a whole number in it is too long to write. -/
def plain? (v : Value) : Except Failure Text :=
  if v.isPrintable then .ok v.plain else .error .longNumberWritten

/-- The text that a value is, where nothing else will do. -/
def asText : Value → Except Failure Text
  | text t => .ok t
  | _ => .error .wrongKind

/-- Whether a value holds a text: a dictionary as a key, a collection as an item, a text as a piece. -/
def mentions (name : Text) : Value → Except Failure Bool
  | dict entries => .ok (Entries.field? name entries).isSome
  | list items => .ok (items.any (·.isText name))
  | tuple items => .ok (items.any (·.isText name))
  | text t => .ok (name.occursIn t)
  | order _ => .ok false
  | _ => .error .wrongKind

end Value

/-- The civil time in UTC of the instant meant, which must lie in the years 1 to 9999. -/
def DateTime.toUtc (d : DateTime) : Except Failure CivilTime :=
  match d.toUtc? with
  | some civil => .ok civil
  | none => .error .dateOutOfRange

/-- The civil time in UTC of a date or a datetime. -/
def Value.toUtc (v : Value) : Except Failure CivilTime :=
  match v.dateTime? with
  | some d => d.toUtc
  | none => .error .wrongKind

end FilterQuery
