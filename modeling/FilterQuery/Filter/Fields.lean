import FilterQuery.Filter.Group

namespace FilterQuery.Filter

/-- The datatype of a rule's field: whatever the rule names, else the hint, else what its value suggests. -/
def fieldDatatype (hints : Hints) (rule : Entries) (field : Value) : Value :=
  match Rule.ownDatatype? rule with
  | some own => own
  | none =>
    .text ((hints.get? field).getD (Datatype.infer ((rule.field? Rule.valueKey).getD .null))).name

/-- A rule's field at the end of those found, if the rule names one that is new. -/
def addField (hints : Hints) (rule : Entries) (found : Entries) : Except Failure Entries :=
  match (rule.field? Rule.fieldKey).filter Value.truth with
  | none => .ok found
  | some field =>
    if !field.isKey then .error .wrongKind
    else if found.hasKey field then .ok found
    else .ok (found ++ [(field, fieldDatatype hints rule field)])

mutual

/-- The fields of a description that need not compile, after those found. -/
def addFields (hints : Hints) (node : Entries) (found : Entries) : Except Failure Entries :=
  match h : node.field? Group.rulesKey with
  | some (.list items) =>
    have := Entries.sizeOf_field? h
    addItemFields hints items found
  | some _ => .error (.filter .fieldsOfNonList)
  | none => addField hints node found
termination_by sizeOf node
decreasing_by simp only [Value.list.sizeOf_spec] at this; omega

def addItemFields (hints : Hints) (items : List Value) (found : Entries) : Except Failure Entries :=
  match items with
  | [] => .ok found
  | .dict entries :: rest =>
    match addFields hints entries found with
    | .error failure => .error failure
    | .ok found => addItemFields hints rest found
  | _ :: rest => addItemFields hints rest found
termination_by sizeOf items
decreasing_by all_goals simp only [List.cons.sizeOf_spec, Value.dict.sizeOf_spec]; omega

end

/-- The fields of a filter description and their datatypes. -/
def fields (hints : Hints) : Value → Except Failure Entries
  | .dict node => addFields hints node []
  | _ => .error (.filter .fieldsOfNonDict)

end FilterQuery.Filter
