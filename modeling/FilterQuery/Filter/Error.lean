import FilterQuery.Filter.Datatype
import FilterQuery.Filter.Operator
import FilterQuery.Json.Message
import FilterQuery.Value.Display

namespace FilterQuery

inductive FilterError where
  | badJson (complaint : Json.Complaint) (position : Json.Position)
  | notObject
  | groupKeysMissing
  | unknownGroupOperator
  | rulesNotList
  | ruleNotDict
  | emptyNegation
  | ruleKeysMissing
  | unknownOperator (operator : Value)
  | valueMissing (operator : Operator)
  | listRequired (operator : Operator)
  | listRefused (operator : Operator)
  | notFullText
  | unsupportedDatatype (datatype field : Value)
  | badNumber (value : Value) (datatype : Datatype)
  | badBoolean (value : Value)
  | badInstantText (value : Value)
  | badInstant (value : Value)
  | fieldsOfNonDict
  | fieldsOfNonList

namespace FilterError

/-- A text between single marks, whatever it holds. -/
def named (t : Text) : Text := "'" ++ t ++ "'"

def message : FilterError → Text
  | badJson complaint position =>
    "DSL JSON parse error: " ++ complaint.message ++ ": " ++ position.message
  | notObject => "DSL must be a JSON object"
  | groupKeysMissing => "Group must contain 'op' and 'rules'"
  | unknownGroupOperator => "Group 'op' must be 'AND', 'OR' or 'NOT'"
  | rulesNotList => "'rules' must be a list"
  | ruleNotDict => "Each rule must be a dict"
  | emptyNegation => "'NOT' group requires at least one rule"
  | ruleKeysMissing => "Rule must contain 'field_name' and 'operator'"
  | unknownOperator operator => "Unknown operator " ++ named operator.plain
  | valueMissing operator => "Operator " ++ named operator.spelling ++ " requires a value"
  | listRequired operator => "Operator " ++ named operator.spelling ++ " requires a list of values"
  | listRefused operator => "Operator " ++ named operator.spelling ++ " does not accept list value"
  | notFullText => "Operator 'fts' only valid for string values"
  | unsupportedDatatype datatype field =>
    "Unsupported datatype " ++ named datatype.plain ++ " for property " ++ named field.plain
  | badNumber value datatype =>
    "Value " ++ value.quoted ++ " is not a valid number for type " ++ datatype.name
  | badBoolean value => "Value " ++ value.quoted ++ " is not a valid boolean"
  | badInstantText value => "Value " ++ value.quoted ++ " is not a valid ISO datetime"
  | badInstant value =>
    "Value " ++ value.quoted ++ " is not a valid datetime (expected datetime or ISO string)"
  | fieldsOfNonDict => "DSL must be a dictionary"
  | fieldsOfNonList => "Rules must be a list"

end FilterError

end FilterQuery
