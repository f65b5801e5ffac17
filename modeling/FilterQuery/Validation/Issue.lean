import FilterQuery.Value.Display

namespace FilterQuery

inductive Problem where
  | missing
  | notText
  | notUnicode
  | tooShort
  | notBool
  | unreadableBool
  | notInt
  | unreadableInt
  | longInt
  | fractionalInt
  | notFinite
  | negative
  | notList
  | notOrder
deriving DecidableEq, Repr

namespace Problem

def message : Problem → Text
  | missing => "Field required"
  | notText => "Input should be a valid string"
  | notUnicode => "Input should be a valid string, unable to parse raw data as a unicode string"
  | tooShort => "String should have at least 1 character"
  | notBool => "Input should be a valid boolean"
  | unreadableBool => "Input should be a valid boolean, unable to interpret input"
  | notInt => "Input should be a valid integer"
  | unreadableInt => "Input should be a valid integer, unable to parse string as an integer"
  | longInt => "Unable to parse input string as an integer, exceeded maximum size"
  | fractionalInt => "Input should be a valid integer, got a number with a fractional part"
  | notFinite => "Input should be a finite number"
  | negative => "Input should be greater than or equal to 0"
  | notList => "Input should be a valid list"
  | notOrder => "Input should be a valid dictionary or instance of SortField"

/-- The short name of a problem. -/
def code : Problem → Text
  | missing => "missing"
  | notText => "string_type"
  | notUnicode => "string_unicode"
  | tooShort => "string_too_short"
  | notBool => "bool_type"
  | unreadableBool => "bool_parsing"
  | notInt => "int_type"
  | unreadableInt => "int_parsing"
  | longInt => "int_parsing_size"
  | fractionalInt => "int_from_float"
  | notFinite => "finite_number"
  | negative => "greater_than_equal"
  | notList => "list_type"
  | notOrder => "model_type"

end Problem

structure Issue where
  path : List Text
  problem : Problem
deriving DecidableEq, Repr

namespace Issue

def message (i : Issue) : Text :=
  Text.join "." i.path ++ ": " ++ i.problem.message ++ " [" ++ i.problem.code ++ "]"

/-- The issue as seen from further out. -/
def inside (outer : List Text) (i : Issue) : Issue := { i with path := outer ++ i.path }

end Issue

/-- What is wrong with a field, if anything. -/
def issuesOf {α : Type} : Except (List Issue) α → List Issue
  | .ok _ => []
  | .error issues => issues

end FilterQuery
