import FilterQuery.Filter.Group
import FilterQuery.Proofs.Printable

namespace FilterQuery

/-- What something failed with, if it failed. -/
def failureOf {α : Type} : Except Failure α → Option Failure
  | .ok _ => none
  | .error failure => some failure

namespace Group

/-- The operator of a group and its parts, still unchecked. -/
def header (group : Entries) : Except Failure (GroupOperator × List Value) :=
  match operator group, group.field? rulesKey with
  | .error failure, _ => .error failure
  | .ok operator, some (.list items) => .ok (operator, items)
  | .ok _, _ => .error (.filter .rulesNotList)

/-- A part of a group must be a dictionary. -/
def dictionary : Value → Except Failure Entries
  | .dict entries => .ok entries
  | _ => .error (.filter .ruleNotDict)

/-- A negation must have parts. -/
def nonempty (operator : GroupOperator) (items : List Value) : Except Failure Unit :=
  if operator = .negation ∧ items = [] then .error (.filter .emptyNegation) else .ok ()

theorem header_ok {group : Entries} {operator : GroupOperator} {items : List Value}
    (h : header group = .ok (operator, items)) :
    Group.operator group = .ok operator ∧ group.field? rulesKey = some (.list items) := by
  unfold header at h
  split at h
  · contradiction
  · rename_i ho hr
    cases h
    exact ⟨ho, hr⟩
  · contradiction

theorem sizeOf_header {group : Entries} {operator : GroupOperator} {items : List Value}
    (h : header group = .ok (operator, items)) : sizeOf items < sizeOf group := by
  have := Entries.sizeOf_field? (header_ok h).2
  simp only [Value.list.sizeOf_spec] at this
  omega

theorem elaborate_of_header_error {hints : Hints} {group : Entries} {failure : Failure}
    (h : header group = .error failure) : elaborate hints group = .error failure := by
  rw [elaborate]
  unfold header at h
  split at h
  · rename_i ho
    cases h
    rw [ho]
  · contradiction
  · rename_i ho hr
    cases h
    rw [ho]
    dsimp only
    split
    · rename_i items hi
      exact absurd hi (hr items)
    · rfl

theorem elaborate_of_header_ok {hints : Hints} {group : Entries} {operator : GroupOperator}
    {items : List Value} (h : header group = .ok (operator, items)) :
    elaborate hints group = (elaborateItems hints items).bind operator.join := by
  obtain ⟨ho, hr⟩ := header_ok h
  rw [elaborate, ho]
  dsimp only
  split
  · rename_i items' hi
    cases hr.symm.trans hi
    cases elaborateItems hints items <;> rfl
  · rename_i hn
    exact absurd hr (hn items)

theorem elaborateItems_dict (hints : Hints) (entries : Entries) (rest : List Value) :
    elaborateItems hints (.dict entries :: rest) =
      (if isGroup entries then elaborate hints entries else Rule.elaborate hints entries).bind fun part =>
        (elaborateItems hints rest).map (part :: ·) := by
  rw [elaborateItems]
  cases (if isGroup entries then elaborate hints entries else Rule.elaborate hints entries) with
  | error failure => rfl
  | ok part => cases elaborateItems hints rest <;> rfl

end Group

/-- One check: of the operator and the list of a group, of a part to be a dictionary, of a whole rule, and of
the number of parts of a group. -/
inductive Check where
  | header (group : Entries)
  | part (v : Value)
  | rule (r : Entries)
  | nonempty (operator : GroupOperator) (items : List Value)

namespace Check

def failure? (hints : Hints) : Check → Option Failure
  | header group => failureOf (Group.header group)
  | part v => failureOf (Group.dictionary v)
  | rule r => failureOf (Rule.elaborate hints r)
  | nonempty operator items => failureOf (Group.nonempty operator items)

mutual

/-- The checks of a group in order: its own, those of its parts, and the one of their number. -/
def ofGroup (group : Entries) : List Check :=
  match h : Group.header group with
  | .error _ => [header group]
  | .ok (operator, items) =>
    have := Group.sizeOf_header h
    header group :: (ofItems items ++ [nonempty operator items])
termination_by sizeOf group

def ofItems (items : List Value) : List Check :=
  match items with
  | [] => []
  | .dict entries :: rest =>
    part (.dict entries) :: ((if Group.isGroup entries then ofGroup entries else [rule entries]) ++ ofItems rest)
  | v :: rest => part v :: ofItems rest
termination_by sizeOf items
decreasing_by all_goals simp only [List.cons.sizeOf_spec, Value.dict.sizeOf_spec]; omega

end

theorem ofGroup_of_error {group : Entries} {failure : Failure} (h : Group.header group = .error failure) :
    ofGroup group = [header group] := by
  rw [ofGroup]
  split
  · rfl
  · rename_i h'
    cases h.symm.trans h'

theorem ofGroup_of_ok {group : Entries} {operator : GroupOperator} {items : List Value}
    (h : Group.header group = .ok (operator, items)) :
    ofGroup group = header group :: (ofItems items ++ [nonempty operator items]) := by
  rw [ofGroup]
  split
  · rename_i h'
    cases h.symm.trans h'
  · rename_i h'
    cases h.symm.trans h'
    rfl

/-- The failure of the first of some checks that is not passed. -/
def firstFailure? (hints : Hints) (checks : List Check) : Option Failure := checks.findSome? (failure? hints)

theorem failureOf_bind {α β : Type} (x : Except Failure α) (f : α → Except Failure β) :
    failureOf (x.bind f) = match x with
      | .error failure => some failure
      | .ok a => failureOf (f a) := by
  cases x <;> rfl

theorem elaborateItems_ne_nil {hints : Hints} {v : Value} {rest : List Value} {parts : List Predicate}
    (h : Group.elaborateItems hints (v :: rest) = .ok parts) : parts ≠ [] := by
  cases v with
  | dict entries =>
    rw [Group.elaborateItems] at h
    split at h
    · contradiction
    split at h
    · contradiction
    · cases h
      exact List.cons_ne_nil _ _
  | _ => simp [Group.elaborateItems] at h

/-- Whether a negation has parts can be told before or after they are elaborated. -/
theorem failureOf_join {hints : Hints} {items : List Value} {parts : List Predicate}
    (operator : GroupOperator) (h : Group.elaborateItems hints items = .ok parts) :
    failureOf (operator.join parts) = failureOf (Group.nonempty operator items) := by
  cases operator with
  | all => rfl
  | any => rfl
  | negation =>
    match items, parts with
    | [], parts =>
      rw [Group.elaborateItems] at h
      cases h
      rfl
    | _ :: _, [] => exact absurd rfl (elaborateItems_ne_nil h)
    | _ :: _, [_] => rfl
    | _ :: _, _ :: _ :: _ => rfl

mutual

-- Along the recursion of elaboration. Each check passed adds nothing to the search, which goes on with the next.
theorem failureOf_elaborate (hints : Hints) (group : Entries) :
    failureOf (Group.elaborate hints group) = firstFailure? hints (ofGroup group) := by
  cases h : Group.header group with
  | error failure =>
    rw [Group.elaborate_of_header_error h, ofGroup_of_error h, firstFailure?, List.findSome?_cons, failure?, h]
    rfl
  | ok found =>
    obtain ⟨operator, items⟩ := found
    have := Group.sizeOf_header h
    have hi := failureOf_elaborateItems hints items
    rw [firstFailure?] at hi
    rw [Group.elaborate_of_header_ok h, ofGroup_of_ok h, firstFailure?, List.findSome?_cons, failure?, h,
      failureOf, List.findSome?_append, ← hi, failureOf_bind]
    cases hp : Group.elaborateItems hints items with
    | error failure => rfl
    | ok parts =>
      -- All parts have passed, so only their number can still be wrong.
      dsimp only
      rw [failureOf_join operator hp, failureOf, Option.none_or, List.findSome?_singleton, failure?]
termination_by sizeOf group

theorem failureOf_elaborateItems (hints : Hints) (items : List Value) :
    failureOf (Group.elaborateItems hints items) = firstFailure? hints (ofItems items) := by
  match items with
  | [] =>
    rw [Group.elaborateItems, ofItems]
    rfl
  | v :: rest =>
    cases v with
    | dict entries =>
      have hr := failureOf_elaborateItems hints rest
      have hp : failureOf (if Group.isGroup entries then Group.elaborate hints entries
            else Rule.elaborate hints entries) =
          firstFailure? hints (if Group.isGroup entries then ofGroup entries else [rule entries]) := by
        split
        · exact failureOf_elaborate hints entries
        · rw [firstFailure?, List.findSome?_singleton, failure?]
      rw [firstFailure?] at hr hp
      rw [Group.elaborateItems_dict, ofItems, firstFailure?, List.findSome?_cons, failure?, Group.dictionary,
        failureOf, List.findSome?_append, ← hr, ← hp, failureOf_bind]
      dsimp only
      cases (if Group.isGroup entries then Group.elaborate hints entries else Rule.elaborate hints entries) with
      | error failure => rfl
      | ok part => cases Group.elaborateItems hints rest <;> rfl
    | _ =>
      simp only [Group.elaborateItems, ofItems, firstFailure?, List.findSome?_cons, failure?,
        Group.dictionary, failureOf]
termination_by sizeOf items
decreasing_by all_goals simp only [List.cons.sizeOf_spec, Value.dict.sizeOf_spec]; omega

end

/-- A description fails with the failure of its first check that is not passed. -/
theorem elaborate_eq_error_iff {hints : Hints} {group : Entries} {failure : Failure} :
    Group.elaborate hints group = .error failure ↔
      ∃ before check after, ofGroup group = before ++ check :: after ∧
        (∀ c ∈ before, c.failure? hints = none) ∧ check.failure? hints = some failure := by
  have h := failureOf_elaborate hints group
  have hf : Group.elaborate hints group = .error failure ↔
      firstFailure? hints (ofGroup group) = some failure := by
    rw [← h]
    cases Group.elaborate hints group <;> simp [failureOf]
  rw [hf, firstFailure?, List.findSome?_eq_some_iff]
  constructor
  · rintro ⟨before, check, after, hs, hc, hb⟩
    exact ⟨before, check, after, hs, hb, hc⟩
  · rintro ⟨before, check, after, hs, hb, hc⟩
    exact ⟨before, check, after, hs, hc, hb⟩

mutual

theorem printable_rule_of_group {group r : Entries} (h : Value.areEntriesPrintable group)
    (hr : rule r ∈ ofGroup group) : Value.areEntriesPrintable r := by
  cases hh : Group.header group with
  | error failure =>
    rw [ofGroup_of_error hh] at hr
    simp at hr
  | ok found =>
    obtain ⟨operator, items⟩ := found
    have := Group.sizeOf_header hh
    have hi : Value.arePrintable items := Entries.printable_field? h (Group.header_ok hh).2
    rw [ofGroup_of_ok hh] at hr
    simp only [List.mem_cons, reduceCtorEq, false_or, List.mem_append, List.not_mem_nil, or_false] at hr
    exact printable_rule_of_items hi hr
termination_by sizeOf group

theorem printable_rule_of_items {items : List Value} {r : Entries} (h : Value.arePrintable items)
    (hr : rule r ∈ ofItems items) : Value.areEntriesPrintable r := by
  match items with
  | [] => simp [ofItems] at hr
  | v :: rest =>
    simp only [Value.arePrintable, Bool.and_eq_true] at h
    cases hv : v with
    | dict entries =>
      rw [hv] at h hr
      simp only [ofItems, List.mem_cons, reduceCtorEq, false_or, List.mem_append] at hr
      obtain hr | hr := hr
      · split at hr
        · exact printable_rule_of_group h.1 hr
        · cases List.mem_singleton.mp hr
          exact h.1
      · exact printable_rule_of_items h.2 hr
    | _ =>
      rw [hv] at hr
      simp only [ofItems, List.mem_cons, reduceCtorEq, false_or] at hr
      exact printable_rule_of_items h.2 hr
termination_by sizeOf items
decreasing_by all_goals simp only [hv, List.cons.sizeOf_spec, Value.dict.sizeOf_spec]; omega

end

end Check

end FilterQuery
