import FilterQuery.Filter.Compile
import FilterQuery.Proofs.Rule

namespace FilterQuery

/-- What the dictionaries of a description are taken for: one with rules is a group, or `unlisted` where they
are no list, any other a rule. What is no dictionary is `stray`. -/
inductive Outline where
  | rule (rule : Entries)
  | group (operator : Option GroupOperator) (parts : List Outline)
  | unlisted
  | stray

namespace Outline

mutual

def ofNode (node : Entries) : Outline :=
  match h : node.field? Group.rulesKey with
  | some (.list items) =>
    have := Entries.sizeOf_field? h
    group (Group.operator? node) (ofItems items)
  | some _ => unlisted
  | none => rule node
termination_by sizeOf node
decreasing_by simp only [Value.list.sizeOf_spec] at this; omega

def ofItems (items : List Value) : List Outline :=
  match items with
  | [] => []
  | .dict entries :: rest => ofNode entries :: ofItems rest
  | _ :: rest => stray :: ofItems rest
termination_by sizeOf items
decreasing_by all_goals simp only [List.cons.sizeOf_spec, Value.dict.sizeOf_spec]; omega

end

mutual

/-- The rules from left to right. -/
def rules : Outline → List Entries
  | rule r => [r]
  | group _ parts => allRules parts
  | unlisted => []
  | stray => []

def allRules : List Outline → List Entries
  | [] => []
  | o :: os => rules o ++ allRules os

end

mutual

/-- The predicate of an outline without faults. A negation of several parts negates their conjunction, one of
none is a fault. -/
inductive Elaborates (hints : Hints) : Outline → Predicate → Prop
  | rule {r : Entries} {operator : Operator} {c : Comparison} (ho : Rule.operator? r = some operator)
      (hc : Rule.comparison? hints r = some c) :
      Elaborates hints (.rule r) (Rule.signed operator.isNegated (.compare c))
  | all {parts : List Outline} {ps : List Predicate} (hs : ElaborateAll hints parts ps) :
      Elaborates hints (.group (some .all) parts) (.all ps)
  | any {parts : List Outline} {ps : List Predicate} (hs : ElaborateAll hints parts ps) :
      Elaborates hints (.group (some .any) parts) (.any ps)
  | negation {part : Outline} {p : Predicate} (h : Elaborates hints part p) :
      Elaborates hints (.group (some .negation) [part]) (.not p)
  | negations {o o' : Outline} {os : List Outline} {ps : List Predicate}
      (hs : ElaborateAll hints (o :: o' :: os) ps) :
      Elaborates hints (.group (some .negation) (o :: o' :: os)) (.not (.all ps))

inductive ElaborateAll (hints : Hints) : List Outline → List Predicate → Prop
  | nil : ElaborateAll hints [] []
  | cons {o : Outline} {os : List Outline} {p : Predicate} {ps : List Predicate}
      (h : Elaborates hints o p) (hs : ElaborateAll hints os ps) : ElaborateAll hints (o :: os) (p :: ps)

end

theorem ElaborateAll.join {hints : Hints} {operator : GroupOperator} {parts : List Outline}
    {ps : List Predicate} {p : Predicate} (hs : ElaborateAll hints parts ps)
    (hp : operator.join ps = .ok p) : Elaborates hints (.group (some operator) parts) p := by
  cases operator with
  | all =>
    cases hp
    exact .all hs
  | any =>
    cases hp
    exact .any hs
  | negation =>
    match hs with
    | .nil => contradiction
    | .cons h .nil =>
      cases hp
      exact .negation h
    | .cons h (.cons h' hs) =>
      cases hp
      exact .negations (.cons h (.cons h' hs))

theorem ofNode_of_list {node : Entries} {items : List Value}
    (h : node.field? Group.rulesKey = some (.list items)) :
    ofNode node = group (Group.operator? node) (ofItems items) := by
  rw [ofNode]
  split
  · rename_i items' h'
    cases h.symm.trans h'
    rfl
  · rename_i v hv h'
    cases h.symm.trans h'
    exact absurd rfl (hv items)
  · rename_i h'
    cases h.symm.trans h'

theorem ofNode_of_none {node : Entries} (h : node.field? Group.rulesKey = none) :
    ofNode node = rule node := by
  rw [ofNode]
  split
  · rename_i h'
    cases h.symm.trans h'
  · rename_i h'
    cases h.symm.trans h'
  · rfl

theorem ofNode_of_other {node : Entries} {v : Value} (h : node.field? Group.rulesKey = some v)
    (hv : ∀ items, v ≠ .list items) : ofNode node = unlisted := by
  rw [ofNode]
  split
  · rename_i items h'
    exact absurd (Option.some.inj (h.symm.trans h')) (hv items)
  · rfl
  · rename_i h'
    cases h.symm.trans h'

theorem elaborateItems_cons {hints : Hints} {v : Value} {rest : List Value} {ps : List Predicate}
    (h : Group.elaborateItems hints (v :: rest) = .ok ps) :
    ∃ entries p qs, v = .dict entries ∧
      (if Group.isGroup entries then Group.elaborate hints entries else Rule.elaborate hints entries) =
        .ok p ∧
      Group.elaborateItems hints rest = .ok qs ∧ ps = p :: qs := by
  cases v with
  | dict entries =>
    rw [Group.elaborateItems] at h
    split at h
    · contradiction
    rename_i p hp
    split at h
    · contradiction
    rename_i qs hs
    cases h
    exact ⟨entries, p, qs, rfl, hp, hs, rfl⟩
  | _ => simp [Group.elaborateItems] at h

mutual

/-- An accepted group has its operator, and a list of parts that are accepted too. -/
theorem elaborates_of_elaborate {hints : Hints} {group : Entries} {p : Predicate}
    (h : Group.elaborate hints group = .ok p) : Elaborates hints (ofNode group) p := by
  rw [Group.elaborate] at h
  split at h
  · contradiction
  rename_i operator ho
  split at h
  · rename_i items hi
    split at h
    · contradiction
    rename_i ps hs
    rw [ofNode_of_list hi, (Group.operator_eq_ok_iff.mp ho).1]
    have := Entries.sizeOf_field? hi
    exact (elaborateAll_of_elaborateItems hs).join h
  · contradiction
termination_by sizeOf group
decreasing_by simp only [Value.list.sizeOf_spec] at this; omega

theorem elaborateAll_of_elaborateItems {hints : Hints} {items : List Value} {ps : List Predicate}
    (h : Group.elaborateItems hints items = .ok ps) : ElaborateAll hints (ofItems items) ps := by
  match items with
  | [] =>
    rw [Group.elaborateItems] at h
    cases h
    rw [ofItems]
    exact .nil
  | v :: rest =>
    obtain ⟨entries, p, qs, hv, hp, hs, rfl⟩ := elaborateItems_cons h
    rw [hv, ofItems]
    refine .cons ?_ (elaborateAll_of_elaborateItems hs)
    split at hp
    · exact elaborates_of_elaborate hp
    · rename_i hg
      obtain ⟨operator, c, ho, hc, rfl⟩ := Rule.elaborate_ok hp
      rw [ofNode_of_none (by simpa [Group.isGroup] using hg)]
      exact .rule ho hc
termination_by sizeOf items
decreasing_by all_goals simp only [hv, List.cons.sizeOf_spec, Value.dict.sizeOf_spec]; omega

end

theorem elaborates_of_compile {hints : Hints} {group : Entries} {t : Text}
    (h : (Filter.compile hints (.dict group)).1 = .ok t) :
    ∃ p, t = p.token ∧ Elaborates hints (ofNode group) p := by
  change (Group.elaborate hints group).map Predicate.token = .ok t at h
  cases hp : Group.elaborate hints group with
  | error =>
    rw [hp] at h
    contradiction
  | ok p =>
    rw [hp] at h
    cases h
    exact ⟨p, rfl, elaborates_of_elaborate hp⟩

theorem comparisons_signed (negated : Bool) (p : Predicate) :
    (Rule.signed negated p).comparisons = p.comparisons := by
  cases negated <;> rfl

mutual

/-- One comparison for each rule, in the order of the rules. -/
theorem Elaborates.comparisons {hints : Hints} {o : Outline} {p : Predicate} (h : Elaborates hints o p) :
    o.rules.map (Rule.comparison? hints) = p.comparisons.map some := by
  match h with
  | .rule ho hc =>
    rw [comparisons_signed, rules, List.map_singleton, hc]
    rfl
  | .all hs => exact hs.comparisons
  | .any hs => exact hs.comparisons
  | .negation h =>
    rw [rules, allRules, allRules, List.append_nil]
    exact h.comparisons
  | .negations hs => exact hs.comparisons

theorem ElaborateAll.comparisons {hints : Hints} {os : List Outline} {ps : List Predicate}
    (h : ElaborateAll hints os ps) :
    (allRules os).map (Rule.comparison? hints) = (Predicate.allComparisons ps).map some := by
  match h with
  | .nil => rfl
  | .cons h hs =>
    rw [allRules, Predicate.allComparisons, List.map_append, List.map_append, h.comparisons,
      hs.comparisons]

end

end Outline

end FilterQuery
