import FilterQuery.Filter.Group

namespace FilterQuery

/-- Looking a text up among spellings finds the first thing that is spelled so. -/
theorem lookup_map_spelling {α : Type} (spelling : α → Text) (t : Text) (all : List α) :
    (all.map fun a => (spelling a, a)).lookup t = all.find? (spelling · = t) := by
  induction all with
  | nil => rfl
  | cons a rest ih =>
    rw [List.map_cons, List.lookup_cons, List.find?_cons, ih]
    by_cases h : spelling a = t
    · simp [h]
    · simp [h, beq_false_of_ne (Ne.symm h)]

namespace Operator

/-- The operators of rules, as the description language spells them. -/
def vocabulary : List (Text × Operator) :=
  [("==", equal), ("!=", notEqual), ("fts", fullText), ("in", isIn), ("not in", notIn), ("is null", isNull),
    ("is not null", isNotNull), ("<", relate .less), ("<=", relate .lessEqual), (">", relate .greater),
    (">=", relate .greaterEqual)]

theorem lookup_vocabulary (t : Text) : vocabulary.lookup t = ofSpelling? t :=
  lookup_map_spelling spelling t all

end Operator

/-- The operator that a rule names, if it is one of the language. -/
def Rule.operator? (rule : Entries) : Option Operator :=
  ((rule.field? operatorKey).bind Value.text?).bind fun t => Operator.vocabulary.lookup t

theorem Rule.operator?_eq (rule : Entries) :
    operator? rule = (rule.field? operatorKey).bind Operator.ofValue? := by
  simp only [operator?, Option.bind_assoc, Operator.lookup_vocabulary]
  rfl

theorem Rule.ofValue?_of_operator? {rule : Entries} {operator : Operator} (h : operator? rule = some operator) :
    ∃ v, rule.field? operatorKey = some v ∧ Operator.ofValue? v = some operator := by
  rw [operator?_eq] at h
  exact Option.bind_eq_some_iff.mp h

theorem Rule.operator?_of_field? {rule : Entries} {t : Text} {operator : Operator}
    (h : rule.field? operatorKey = some (.text t)) (ht : Operator.vocabulary.lookup t = some operator) :
    operator? rule = some operator := by
  rw [operator?, h]
  exact ht

namespace GroupOperator

/-- The operators of groups, as the description language spells them. -/
def vocabulary : List (Text × GroupOperator) := [("AND", all), ("OR", any), ("NOT", negation)]

theorem lookup_vocabulary (t : Text) : vocabulary.lookup t = [all, any, negation].find? (·.spelling = t) :=
  lookup_map_spelling spelling t [all, any, negation]

end GroupOperator

/-- The operator that a group names, if it is one of the language. -/
def Group.operator? (group : Entries) : Option GroupOperator :=
  ((group.field? operatorKey).bind Value.text?).bind fun t => GroupOperator.vocabulary.lookup t

theorem Group.operator?_eq (group : Entries) :
    operator? group = (group.field? operatorKey).bind GroupOperator.ofValue? := by
  simp only [operator?, Option.bind_assoc, GroupOperator.lookup_vocabulary]
  rfl

/-- A group with both keys has the operator that it names. -/
theorem Group.operator_eq_ok_iff {group : Entries} {operator : GroupOperator} :
    Group.operator group = .ok operator ↔
      operator? group = some operator ∧ (group.field? rulesKey).isSome := by
  rw [operator?_eq, Group.operator]
  cases group.field? operatorKey with
  | none => simp
  | some op =>
    cases group.field? rulesKey with
    | none => simp
    | some v => cases h : GroupOperator.ofValue? op <;> simp [h]

end FilterQuery
