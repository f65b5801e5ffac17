import FilterQuery.Filter.Rule

namespace FilterQuery

namespace GroupOperator

/-- The predicate of a group with the given parts. A negation of several negates their conjunction. -/
def join : GroupOperator → List Predicate → Except Failure Predicate
  | all, ps => .ok (.all ps)
  | any, ps => .ok (.any ps)
  | negation, [] => .error (.filter .emptyNegation)
  | negation, [p] => .ok (.not p)
  | negation, ps => .ok (.not (.all ps))

end GroupOperator

namespace Group

def operatorKey : Text := "op"
def rulesKey : Text := "rules"

/-- Dictionaries with rules are groups, all others rules. -/
def isGroup (entries : Entries) : Bool := (entries.field? rulesKey).isSome

/-- The operator of a group that has both keys. -/
def operator (group : Entries) : Except Failure GroupOperator :=
  match group.field? operatorKey, group.field? rulesKey with
  | some op, some _ =>
    match GroupOperator.ofValue? op with
    | some operator => .ok operator
    | none => .error (.filter .unknownGroupOperator)
  | _, _ => .error (.filter .groupKeysMissing)

mutual

/-- The predicate of a group, depth first from left to right, or the first fault in that order. -/
def elaborate (hints : Hints) (group : Entries) : Except Failure Predicate :=
  match operator group with
  | .error failure => .error failure
  | .ok operator =>
    match h : group.field? rulesKey with
    | some (.list items) =>
      have := Entries.sizeOf_field? h
      match elaborateItems hints items with
      | .error failure => .error failure
      | .ok parts => operator.join parts
    | _ => .error (.filter .rulesNotList)
termination_by sizeOf group
decreasing_by simp only [Value.list.sizeOf_spec] at this; omega

def elaborateItems (hints : Hints) (items : List Value) : Except Failure (List Predicate) :=
  match items with
  | [] => .ok []
  | .dict entries :: rest =>
    match if isGroup entries then elaborate hints entries else Rule.elaborate hints entries with
    | .error failure => .error failure
    | .ok part =>
      match elaborateItems hints rest with
      | .error failure => .error failure
      | .ok parts => .ok (part :: parts)
  | _ :: _ => .error (.filter .ruleNotDict)
termination_by sizeOf items
decreasing_by all_goals simp only [List.cons.sizeOf_spec, Value.dict.sizeOf_spec]; omega

end

/-- A group of any kind: what is no dictionary may hold the keys, but has no values for them. -/
def elaborateAny (hints : Hints) (v : Value) : Except Failure Predicate := do
  match v with
  | .dict group => elaborate hints group
  | v =>
    if !(← v.mentions operatorKey) then .error (.filter .groupKeysMissing)
    else if !(← v.mentions rulesKey) then .error (.filter .groupKeysMissing)
    else .error .wrongKind

end Group

end FilterQuery
