import FilterQuery.Filter.Conversion
import FilterQuery.Filter.Hints
import FilterQuery.Predicate.Basic

namespace FilterQuery

namespace Rule

def fieldKey : Text := "field_name"
def operatorKey : Text := "operator"
def valueKey : Text := "value"
def datatypeKey : Text := "dtype"

def faulty {α : Type} (error : FilterError) : Except Failure α := .error (.filter error)

/-- The datatype that a rule names itself, unless it is blank. -/
def ownDatatype? (rule : Entries) : Option Value := (rule.field? datatypeKey).filter Value.truth

/-- A rule's datatype: its own, else the hint for its field, else the one that its value suggests. -/
def datatype (hints : Hints) (rule : Entries) (field value : Value) : Except Failure Datatype :=
  match ownDatatype? rule with
  | some own =>
    match Datatype.ofValue? own with
    | some d => .ok d
    | none => .error (.showing [own, field] (.filter (.unsupportedDatatype own field)))
  | none => do return ((← hints.lookUp field).getD (Datatype.infer value))

/-- The field equals one of the literals. -/
def equalTo (field : Value) (values : List Literal) : Except Failure Predicate := do
  return .compare (.equal (← field.asText) values)

/-- A predicate, or its negation. -/
def signed (negated : Bool) (p : Predicate) : Predicate := if negated then .not p else p

/-- Membership of the field in a list of values. -/
def elaborateMembership (operator : Operator) (negated : Bool) (field value : Value)
    (d : Datatype) : Except Failure Predicate :=
  match value.items? with
  | none => faulty (.listRequired operator)
  | some items => do
    let literals ← items.mapM d.literal
    return signed negated (← equalTo field literals)

/-- Full-text search, for texts alone. -/
def elaborateFullText (field value : Value) (d : Datatype) : Except Failure Predicate :=
  match d, value with
  | .string, .text t => do return .compare (.fullText (← field.asText) t)
  | _, _ => faulty .notFullText

/-- A relation of the field to one literal. -/
def elaborateRelation (relation : Relation) (field : Value) (l : Literal) : Except Failure Predicate := do
  return .compare (.relate relation (← field.asText) l)

/-- An operator that takes one value, and no list. -/
def elaborateSingle (operator : Operator) (value : Value) (d : Datatype)
    (build : Literal → Except Failure Predicate) : Except Failure Predicate :=
  match value.items? with
  | some _ => faulty (.listRefused operator)
  | none => do build (← d.literal value)

/-- An operator with the value and the datatype of its rule. -/
def elaborateValue (operator : Operator) (field value : Value) (d : Datatype) : Except Failure Predicate :=
  match operator with
  | .isIn => elaborateMembership operator false field value d
  | .notIn => elaborateMembership operator true field value d
  | .fullText =>
    if value.items?.isSome then faulty (.listRefused operator) else elaborateFullText field value d
  | .relate relation => elaborateSingle operator value d (elaborateRelation relation field)
  | .notEqual =>
    elaborateSingle operator value d fun l => do return signed true (← equalTo field [l])
  | _ => elaborateSingle operator value d fun l => equalTo field [l]

/-- An operator on a field; all but the two null tests need a value. -/
def elaborateOperator (hints : Hints) (rule : Entries) (field : Value) (operator : Operator) :
    Except Failure Predicate :=
  match operator with
  | .isNull => equalTo field [.null]
  | .isNotNull => do return signed true (← equalTo field [.null])
  | _ =>
    match rule.field? valueKey with
    | none => faulty (.valueMissing operator)
    | some value => do elaborateValue operator field value (← datatype hints rule field value)

/-- The predicate of a rule. The field is looked at last, so that one which is no text shows only where all else is
right. -/
def elaborate (hints : Hints) (rule : Entries) : Except Failure Predicate :=
  match rule.field? fieldKey, rule.field? operatorKey with
  | some field, some operator =>
    match Operator.ofValue? operator with
    | some op => elaborateOperator hints rule field op
    | none => .error (.showing [operator] (.filter (.unknownOperator operator)))
  | _, _ => faulty .ruleKeysMissing

/-- A rule of any kind: what is no dictionary may hold the keys, but has no values for them. -/
def elaborateAny (hints : Hints) (v : Value) : Except Failure Predicate := do
  match v with
  | .dict rule => elaborate hints rule
  | v =>
    if !(← v.mentions fieldKey) then faulty .ruleKeysMissing
    else if !(← v.mentions operatorKey) then faulty .ruleKeysMissing
    else .error .wrongKind

end Rule

end FilterQuery
