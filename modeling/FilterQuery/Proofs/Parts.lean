import FilterQuery.Proofs.Entries
import FilterQuery.Proofs.Faults
import FilterQuery.Proofs.Rule

namespace FilterQuery

namespace Group

/-- A group has an operator and parts, whatever else it holds. -/
structure Joins (group : Entries) (operator : GroupOperator) (items : List Value) : Prop where
  joined : operator? group = some operator
  listed : group.field? rulesKey = some (.list items)

variable {hints : Hints} {group : Entries} {operator : GroupOperator} {items : List Value} {p : Predicate}

theorem header_eq_ok_iff : header group = .ok (operator, items) ↔ Joins group operator items := by
  constructor
  · intro h
    obtain ⟨ho, hr⟩ := header_ok h
    exact ⟨(operator_eq_ok_iff.mp ho).1, hr⟩
  · rintro ⟨ho, hr⟩
    have hok : Group.operator group = .ok operator := operator_eq_ok_iff.mpr ⟨ho, by rw [hr]; rfl⟩
    simp only [header, hok, hr]

/-- A part of a group on its own. -/
def elaboratePart (hints : Hints) : Value → Except Failure Predicate
  | .dict entries => if isGroup entries then elaborate hints entries else Rule.elaborate hints entries
  | _ => .error (.filter .ruleNotDict)

theorem elaboratePart_group (h : isGroup group = true) : elaboratePart hints (.dict group) = elaborate hints group :=
  if_pos h

theorem elaboratePart_rule {rule : Entries} (h : isGroup rule = false) :
    elaboratePart hints (.dict rule) = Rule.elaborate hints rule := by
  rw [elaboratePart, h, if_neg Bool.false_ne_true]

theorem elaborateItems_eq_mapM (hints : Hints) (items : List Value) :
    elaborateItems hints items = items.mapM (elaboratePart hints) := by
  induction items with
  | nil =>
    rw [elaborateItems]
    rfl
  | cons v rest ih =>
    rw [List.mapM_cons, ← ih]
    cases v with
    | dict entries => exact elaborateItems_dict hints entries rest
    | _ =>
      rw [elaborateItems]
      · rfl
      · exact nofun

/-- A group with other parts has them in its header. -/
theorem header_insert (h : group.field? rulesKey = some (.list items)) (items' : List Value) :
    header (group.insert (.text rulesKey) (.list items')) = (header group).map fun found => (found.1, items') := by
  have hk : rulesKey ≠ operatorKey := by decide
  have ho : Group.operator (group.insert (.text rulesKey) (.list items')) = Group.operator group := by
    rw [Group.operator, Group.operator, Entries.field?_insert_of_ne hk, Entries.field?_insert, h]
    cases group.field? operatorKey <;> rfl
  rw [header, header, ho, h, Entries.field?_insert]
  cases Group.operator group <;> rfl

theorem isGroup_congr {group' : Entries} (h : group'.field? rulesKey = group.field? rulesKey) :
    isGroup group' = isGroup group := by
  rw [isGroup, isGroup, h]

theorem isGroup_insert (group : Entries) (v : Value) : isGroup (group.insert (.text rulesKey) v) = true := by
  rw [isGroup, Entries.field?_insert]
  rfl

theorem Joins.isGroup (h : Joins group operator items) : Group.isGroup group = true := by
  rw [Group.isGroup, h.listed]
  rfl

/-- A group has no other parts than those listed in it. -/
theorem header_items {items' : List Value} (h : header group = .ok (operator, items'))
    (hr : group.field? rulesKey = some (.list items)) : items' = items := by
  cases hr.symm.trans (header_ok h).2
  rfl

/-- Without a list of rules there is no header. -/
theorem header_error (h : ∀ items, group.field? rulesKey ≠ some (.list items)) :
    ∃ failure, header group = .error failure := by
  cases hh : header group with
  | error failure => exact ⟨failure, rfl⟩
  | ok found => exact absurd (header_ok hh).2 (h found.2)

/-- A group stands for the predicates of its parts, joined. -/
theorem Joins.elaborate_eq_ok_iff (h : Joins group operator items) : elaborate hints group = .ok p ↔
    ∃ parts, items.mapM (elaboratePart hints) = .ok parts ∧ operator.join parts = .ok p := by
  rw [elaborate_of_header_ok (header_eq_ok_iff.mpr h), elaborateItems_eq_mapM]
  exact bind_eq_ok

/-- A part may be replaced by one that stands for the same predicate, if for any. -/
theorem elaborate_replace {before after : List Value} {v w : Value}
    (hr : group.field? rulesKey = some (.list (before ++ v :: after)))
    (hp : ∀ q, elaboratePart hints w = .ok q ↔ elaboratePart hints v = .ok q) :
    elaborate hints (group.insert (.text rulesKey) (.list (before ++ w :: after))) = .ok p ↔
      elaborate hints group = .ok p := by
  have hh := header_insert hr (before ++ w :: after)
  cases h : header group with
  | error failure =>
    rw [h] at hh
    rw [elaborate_of_header_error hh, elaborate_of_header_error h]
  | ok found =>
    obtain ⟨operator, items⟩ := found
    cases header_items h hr
    rw [h] at hh
    rw [(header_eq_ok_iff.mp hh).elaborate_eq_ok_iff, (header_eq_ok_iff.mp h).elaborate_eq_ok_iff]
    simp only [List.mapM_append, List.mapM_cons, bind_eq_ok, hp]

end Group

end FilterQuery
