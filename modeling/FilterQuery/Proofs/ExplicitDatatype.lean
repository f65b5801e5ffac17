import FilterQuery.Filter.Compile
import FilterQuery.Proofs.Conversion
import FilterQuery.Proofs.Parts

namespace FilterQuery

namespace Rule

/-- A rule with a field and a value names the datatype that it has; a rule whose datatype cannot be told stays. -/
def explicit (hints : Hints) (rule : Entries) : Entries :=
  match rule.field? fieldKey, rule.field? valueKey with
  | some field, some value =>
    match datatype hints rule field value with
    | .ok d => rule.insert (.text datatypeKey) (.text d.name)
    | .error _ => rule
  | _, _ => rule

variable {rule : Entries} {field value : Value}

theorem explicit_cases (hints : Hints) (rule : Entries) : explicit hints rule = rule ∨
    ∃ d, explicit hints rule = rule.insert (.text datatypeKey) (.text (Datatype.name d)) := by
  unfold explicit
  split
  · split
    · exact .inr ⟨_, rfl⟩
    · exact .inl rfl
  · exact .inl rfl

/-- Only the datatype is written. -/
theorem field?_explicit (hints : Hints) (rule : Entries) {key : Text} (hk : datatypeKey ≠ key) :
    (explicit hints rule).field? key = rule.field? key := by
  rcases explicit_cases hints rule with h | ⟨d, h⟩
  · rw [h]
  · rw [h, Entries.field?_insert_of_ne hk]

theorem datatype_insert (hints : Hints) (rule : Entries) (field value : Value) (d : Datatype) :
    datatype hints (rule.insert (.text datatypeKey) (.text d.name)) field value = .ok d :=
  datatype_of_own (Entries.field?_insert _ _ _) hints field value

/-- The failure of a rule whose datatype cannot be told depends on no hint either. -/
theorem datatype_error {hints : Hints} {failure : Failure} (h : datatype hints rule field value = .error failure)
    (hints' : Hints) : datatype hints' rule field value = .error failure := by
  rw [datatype] at h ⊢
  cases ho : ownDatatype? rule with
  | some own =>
    rw [ho] at h
    exact h
  | none =>
    rw [ho] at h
    dsimp only at h ⊢
    rw [Hints.lookUp] at h ⊢
    cases hk : field.isKey with
    | true =>
      rw [hk] at h
      contradiction
    | false =>
      rw [hk] at h
      exact h

theorem datatype_explicit (hints hints' : Hints) (hf : rule.field? fieldKey = some field)
    (hv : rule.field? valueKey = some value) :
    datatype hints' (explicit hints rule) field value = datatype hints rule field value := by
  simp only [explicit, hf, hv]
  cases h : datatype hints rule field value with
  | ok d => exact datatype_insert hints' rule field value d
  | error failure => exact datatype_error h hints'

theorem elaborateOperator_explicit (hints hints' : Hints) (hf : rule.field? fieldKey = some field)
    (operator : Operator) :
    elaborateOperator hints' (explicit hints rule) field operator = elaborateOperator hints rule field operator := by
  cases hn : operator.isNullTest with
  | true => cases operator <;> first | rfl | contradiction
  | false =>
    rw [elaborateOperator_eq hn, elaborateOperator_eq hn, field?_explicit hints rule (by decide)]
    cases hv : rule.field? valueKey with
    | none => rfl
    | some value =>
      dsimp only
      rw [datatype_explicit hints hints' hf hv]

theorem elaborate_explicit (hints hints' : Hints) (rule : Entries) :
    elaborate hints' (explicit hints rule) = elaborate hints rule := by
  rw [elaborate, elaborate, field?_explicit hints rule (by decide), field?_explicit hints rule (by decide)]
  cases hf : rule.field? fieldKey with
  | none => rfl
  | some field =>
    cases rule.field? operatorKey with
    | none => rfl
    | some op =>
      dsimp only
      cases Operator.ofValue? op with
      | none => rfl
      | some operator => exact elaborateOperator_explicit hints hints' hf operator

end Rule

namespace Group

mutual

/-- A description in which all rules name their datatypes, as far as these can be told. -/
def explicit (hints : Hints) (group : Entries) : Entries :=
  match h : group.field? rulesKey with
  | some (.list items) =>
    have := Entries.sizeOf_field? h
    group.insert (.text rulesKey) (.list (explicitItems hints items))
  | _ => group
termination_by sizeOf group
decreasing_by simp only [Value.list.sizeOf_spec] at this; omega

def explicitItems (hints : Hints) (items : List Value) : List Value :=
  match items with
  | [] => []
  | .dict entries :: rest =>
    .dict (if isGroup entries then explicit hints entries else Rule.explicit hints entries) ::
      explicitItems hints rest
  | v :: rest => v :: explicitItems hints rest
termination_by sizeOf items
decreasing_by all_goals simp only [List.cons.sizeOf_spec, Value.dict.sizeOf_spec]; omega

end

theorem explicit_of_list {hints : Hints} {group : Entries} {items : List Value}
    (h : group.field? rulesKey = some (.list items)) :
    explicit hints group = group.insert (.text rulesKey) (.list (explicitItems hints items)) := by
  rw [explicit]
  split
  · rename_i items' h'
    cases h.symm.trans h'
    rfl
  · rename_i hn
    exact absurd h (hn items)

theorem explicit_of_other {hints : Hints} {group : Entries}
    (h : ∀ items, group.field? rulesKey ≠ some (.list items)) : explicit hints group = group := by
  rw [explicit]
  split
  · rename_i items h'
    exact absurd h' (h items)
  · rfl

theorem isGroup_explicit (hints : Hints) {group : Entries} (h : isGroup group = true) :
    isGroup (explicit hints group) = true := by
  by_cases hl : ∃ items, group.field? rulesKey = some (.list items)
  · obtain ⟨items, hr⟩ := hl
    rw [explicit_of_list hr, isGroup_insert]
  · rw [explicit_of_other (not_exists.mp hl), h]

mutual

-- Along the recursion of elaboration: headers stay, and rules keep their predicates or failures.
theorem elaborate_explicit (hints hints' : Hints) (group : Entries) :
    elaborate hints' (explicit hints group) = elaborate hints group := by
  by_cases hl : ∃ items, group.field? rulesKey = some (.list items)
  · obtain ⟨items, hr⟩ := hl
    have := Entries.sizeOf_field? hr
    have hi := elaborateItems_explicit hints hints' items
    have hh := header_insert hr (explicitItems hints items)
    rw [explicit_of_list hr]
    cases h : header group with
    | error failure =>
      rw [h] at hh
      rw [elaborate_of_header_error hh, elaborate_of_header_error h]
    | ok found =>
      obtain ⟨operator, items'⟩ := found
      cases header_items h hr
      rw [h] at hh
      rw [elaborate_of_header_ok hh, elaborate_of_header_ok h, hi]
  · rw [explicit_of_other (not_exists.mp hl)]
    obtain ⟨failure, hh⟩ := header_error (not_exists.mp hl)
    rw [elaborate_of_header_error hh, elaborate_of_header_error hh]
termination_by sizeOf group
decreasing_by simp only [Value.list.sizeOf_spec] at this; omega

theorem elaborateItems_explicit (hints hints' : Hints) (items : List Value) :
    elaborateItems hints' (explicitItems hints items) = elaborateItems hints items := by
  match items with
  | [] => rw [explicitItems, elaborateItems, elaborateItems]
  | .dict entries :: rest =>
    have hr := elaborateItems_explicit hints hints' rest
    rw [explicitItems, elaborateItems_dict, elaborateItems_dict, hr]
    cases hg : isGroup entries with
    | true =>
      have he := elaborate_explicit hints hints' entries
      rw [if_pos rfl, if_pos (isGroup_explicit hints hg), if_pos rfl, he]
    | false =>
      have hg' := (isGroup_congr (Rule.field?_explicit hints entries (by decide))).trans hg
      rw [if_neg Bool.false_ne_true, hg', if_neg Bool.false_ne_true, if_neg Bool.false_ne_true,
        Rule.elaborate_explicit]
  | .null :: _ | .bool _ :: _ | .int _ :: _ | .float _ :: _ | .text _ :: _ | .list _ :: _ | .tuple _ :: _
  | .date _ :: _ | .dateTime _ :: _ | .order _ :: _ =>
    simp only [explicitItems, elaborateItems]
termination_by sizeOf items
decreasing_by all_goals simp only [List.cons.sizeOf_spec, Value.dict.sizeOf_spec]; omega

end

end Group

namespace Filter

/-- A description in which the rules name their datatypes compiles as the original, under whatever hints. -/
theorem compile_explicit (hints hints' : Hints) (group : Entries) :
    compile hints' (.dict (Group.explicit hints group)) = compile hints (.dict group) := by
  have h : compileGroup hints' (.dict (Group.explicit hints group)) = compileGroup hints (.dict group) := by
    rw [compileGroup, compileGroup, Group.elaborateAny, Group.elaborateAny, Group.elaborate_explicit]
  simp only [compile, description, h]

end Filter

end FilterQuery
