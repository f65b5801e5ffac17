import FilterQuery.Filter.Compile
import FilterQuery.Proofs.Parts

namespace FilterQuery

namespace Group

/-- A group inside another at any depth, or that group itself. -/
inductive Nested (inner : Entries) : Entries → Prop
  | self : Nested inner inner
  | part {group part : Entries} {items : List Value} (hr : group.field? rulesKey = some (.list items))
      (hp : .dict part ∈ items) (hg : isGroup part = true) (h : Nested inner part) : Nested inner group

/-- A group has an operator and a list of dictionaries, its rules are accepted one by one, and a negation has
parts. What its own groups are like does not matter. -/
structure WellFormed (hints : Hints) (group : Entries) (operator : GroupOperator) (items : List Value) : Prop
    extends Joins group operator items where
  dictionaries : ∀ v ∈ items, ∃ entries, v = .dict entries
  accepted : ∀ r, .dict r ∈ items → isGroup r = false → ∃ t, Filter.compileRule hints (.dict r) = .ok t
  nonempty : operator = .negation → items ≠ []

end Group

namespace Check

/-- A check that is not passed, and the failure that tells of it. -/
inductive Offends (hints : Hints) : Check → Failure → Prop
  | keys {group : Entries}
      (h : group.field? Group.operatorKey = none ∨ group.field? Group.rulesKey = none) :
      Offends hints (header group) (.filter .groupKeysMissing)
  | operator {group : Entries} {op v : Value} (ho : group.field? Group.operatorKey = some op)
      (hr : group.field? Group.rulesKey = some v) (h : Group.operator? group = none) :
      Offends hints (header group) (.filter .unknownGroupOperator)
  | unlisted {group : Entries} {operator : GroupOperator} {v : Value}
      (ho : Group.operator? group = some operator)
      (hr : group.field? Group.rulesKey = some v) (h : ∀ items, v ≠ .list items) :
      Offends hints (header group) (.filter .rulesNotList)
  | part {v : Value} (h : ∀ entries, v ≠ .dict entries) : Offends hints (part v) (.filter .ruleNotDict)
  | rule {r : Entries} {failure : Failure} (h : Filter.compileRule hints (.dict r) = .error failure) :
      Offends hints (rule r) failure
  | empty : Offends hints (nonempty .negation []) (.filter .emptyNegation)

variable {hints : Hints} {failure : Failure}

theorem failureOf_eq_some_iff {α : Type} {x : Except Failure α} :
    failureOf x = some failure ↔ x = .error failure := by
  cases x <;> simp [failureOf]

theorem header_of_offends {group : Entries} (h : Offends hints (header group) failure) :
    Group.header group = .error failure := by
  cases h with
  | keys h =>
    rcases h with h | h
    · simp only [Group.header, Group.operator, h]
    · cases ho : group.field? Group.operatorKey <;> simp only [Group.header, Group.operator, h, ho]
  | @operator _ op _ ho hr h =>
    rw [Group.operator?_eq, ho, Option.bind_some] at h
    simp only [Group.header, Group.operator, ho, hr, h]
  | @unlisted _ operator v ho hr h =>
    have hok : Group.operator group = .ok operator := Group.operator_eq_ok_iff.mpr ⟨ho, by rw [hr]; rfl⟩
    rw [Group.header, hok, hr]
    cases v with
    | list items => exact absurd rfl (h items)
    | _ => rfl

theorem offends_of_header {group : Entries} (h : Group.header group = .error failure) :
    Offends hints (header group) failure := by
  -- The keys of the group decide; each way but the good one is a constructor.
  have he {fault : Failure} (ho : Offends hints (header group) fault) : Offends hints (header group) failure := by
    cases h.symm.trans (header_of_offends ho)
    exact ho
  cases ho : group.field? Group.operatorKey with
  | none => exact he (.keys (.inl ho))
  | some op =>
    cases hr : group.field? Group.rulesKey with
    | none => exact he (.keys (.inr hr))
    | some v =>
      cases hs : Group.operator? group with
      | none => exact he (.operator ho hr hs)
      | some operator =>
        by_cases hl : ∃ items, v = .list items
        · obtain ⟨items, rfl⟩ := hl
          cases h.symm.trans (Group.header_eq_ok_iff.mpr ⟨hs, hr⟩)
        · exact he (.unlisted hs hr (not_exists.mp hl))

theorem failureOf_compileRule (hints : Hints) (r : Entries) :
    failureOf (Filter.compileRule hints (.dict r)) = failureOf (Rule.elaborate hints r) := by
  change failureOf ((Rule.elaborate hints r).map Predicate.token) = _
  cases Rule.elaborate hints r <;> rfl

/-- A check has a failure if it is not passed, and the one that tells of it. -/
theorem failure?_eq_some_iff {check : Check} : check.failure? hints = some failure ↔ Offends hints check failure := by
  cases check with
  | header group =>
    rw [failure?, failureOf_eq_some_iff]
    exact ⟨offends_of_header, header_of_offends⟩
  | part v =>
    rw [failure?, failureOf_eq_some_iff]
    constructor
    · intro h
      unfold Group.dictionary at h
      split at h
      · contradiction
      · rename_i hn
        cases h
        exact .part hn
    · intro h
      cases h with
      | part hn =>
        unfold Group.dictionary
        split
        · rename_i entries
          exact absurd rfl (hn entries)
        · rfl
  | rule r =>
    rw [failure?, ← failureOf_compileRule, failureOf_eq_some_iff]
    constructor
    · intro h
      exact .rule h
    · intro h
      cases h with
      | rule h => exact h
  | nonempty operator items =>
    rw [failure?, failureOf_eq_some_iff]
    constructor
    · intro h
      unfold Group.nonempty at h
      split at h
      · rename_i hn
        obtain ⟨rfl, rfl⟩ := hn
        cases h
        exact .empty
      · contradiction
    · intro h
      cases h
      rfl

theorem failure?_eq_none_iff {check : Check} :
    check.failure? hints = none ↔ ∀ failure, ¬ Offends hints check failure := by
  rw [Option.eq_none_iff_forall_ne_some]
  exact forall_congr' fun failure => not_congr failure?_eq_some_iff

/-- The checks of a part: the one to be a dictionary, and those of the group or the rule that it is. -/
theorem mem_ofItems {items : List Value} {check : Check} :
    check ∈ ofItems items ↔ ∃ v ∈ items, check = part v ∨ ∃ entries, v = .dict entries ∧
      check ∈ if Group.isGroup entries then ofGroup entries else [rule entries] := by
  induction items with
  | nil => simp [ofItems]
  | cons v rest ih =>
    cases v with
    | dict entries => simp [ofItems, ih, or_assoc]
    | _ => simp [ofItems, ih]

/-- All checks of a group are passed. -/
def Passes (hints : Hints) (group : Entries) : Prop := ∀ check ∈ ofGroup group, check.failure? hints = none

theorem Passes.header {group : Entries} (h : Passes hints group) :
    ∃ operator items, Group.header group = .ok (operator, items) := by
  cases hh : Group.header group with
  | ok found => exact ⟨found.1, found.2, rfl⟩
  | error failure =>
    have hc := h (.header group) (by rw [ofGroup_of_error hh]; exact List.mem_singleton_self _)
    rw [failure?, hh] at hc
    contradiction

theorem Passes.items {group : Entries} {operator : GroupOperator} {items : List Value} (h : Passes hints group)
    (hh : Group.header group = .ok (operator, items)) :
    (∀ check ∈ ofItems items, check.failure? hints = none) ∧
      (nonempty operator items).failure? hints = none := by
  rw [Passes, ofGroup_of_ok hh] at h
  constructor
  · intro check hc
    exact h check (List.mem_cons_of_mem _ (List.mem_append_left _ hc))
  · exact h _ (List.mem_cons_of_mem _ (List.mem_append_right _ (List.mem_singleton_self _)))

theorem Passes.wellFormed {group : Entries} (h : Passes hints group) :
    ∃ operator items, Group.WellFormed hints group operator items := by
  obtain ⟨operator, items, hh⟩ := h.header
  obtain ⟨hi, hn⟩ := h.items hh
  refine ⟨operator, items, Group.header_eq_ok_iff.mp hh, ?_, ?_, ?_⟩
  · intro v hv
    have hp := hi (part v) (mem_ofItems.mpr ⟨v, hv, .inl rfl⟩)
    by_cases hd : ∃ entries, v = .dict entries
    · exact hd
    · exact absurd (.part (not_exists.mp hd)) (failure?_eq_none_iff.mp hp _)
  · intro r hr hg
    have hp := hi (rule r) (mem_ofItems.mpr ⟨.dict r, hr, .inr ⟨r, rfl, by simp [hg]⟩⟩)
    cases hc : Filter.compileRule hints (.dict r) with
    | ok t => exact ⟨t, rfl⟩
    | error failure => exact absurd (.rule hc) (failure?_eq_none_iff.mp hp failure)
  · rintro rfl rfl
    exact absurd .empty (failure?_eq_none_iff.mp hn _)

theorem Passes.part {group part : Entries} {items : List Value} (h : Passes hints group)
    (hr : group.field? Group.rulesKey = some (.list items)) (hp : .dict part ∈ items)
    (hg : Group.isGroup part = true) : Passes hints part := by
  obtain ⟨operator, items', hh⟩ := h.header
  cases hr.symm.trans (Group.header_eq_ok_iff.mp hh).listed
  intro check hc
  exact (h.items hh).1 check (mem_ofItems.mpr ⟨_, hp, .inr ⟨part, rfl, by rw [if_pos hg]; exact hc⟩⟩)

theorem Passes.nested {group inner : Entries} (h : Passes hints group) (hn : Group.Nested inner group) :
    Passes hints inner := by
  induction hn with
  | self => exact h
  | part hr hp hg _ ih => exact ih (h.part hr hp hg)

-- Along the nesting: the checks of a part that is a group are those of a smaller description.
theorem passes_of_wellFormed {group : Entries}
    (h : ∀ inner, Group.Nested inner group → ∃ operator items, Group.WellFormed hints inner operator items) :
    Passes hints group := by
  obtain ⟨operator, items, hw⟩ := h group .self
  have hh := Group.header_eq_ok_iff.mpr hw.toJoins
  have hlt := Group.sizeOf_header hh
  intro check hc
  rw [ofGroup_of_ok hh, List.mem_cons, List.mem_append, List.mem_singleton] at hc
  rcases hc with rfl | hc | rfl
  · rw [failure?, hh]
    rfl
  · obtain ⟨v, hv, rfl | ⟨entries, rfl, hc⟩⟩ := mem_ofItems.mp hc
    · obtain ⟨entries, rfl⟩ := hw.dictionaries v hv
      rfl
    · split at hc
      · rename_i hg
        have := List.sizeOf_lt_of_mem hv
        exact passes_of_wellFormed (fun inner hn => h inner (.part hw.listed hv hg hn)) check hc
      · rename_i hg
        obtain ⟨t, ht⟩ := hw.accepted entries hv (Bool.not_eq_true _ ▸ hg)
        rw [List.mem_singleton.mp hc, failure?, ← failureOf_compileRule, ht]
        rfl
  · rw [failure?, Group.nonempty, if_neg]
    · rfl
    · rintro ⟨ho, hi⟩
      exact hw.nonempty ho hi
termination_by sizeOf group
decreasing_by simp only [Value.dict.sizeOf_spec] at this; omega

theorem elaborate_eq_ok_iff {group : Entries} :
    (∃ p, Group.elaborate hints group = .ok p) ↔ Passes hints group := by
  have h := failureOf_elaborate hints group
  rw [Passes, ← List.findSome?_eq_none_iff, ← firstFailure?, ← h]
  cases Group.elaborate hints group <;> simp [failureOf]

end Check

namespace Filter

/-- A group compiles if it and all groups in it are well formed. If it does not, the first check at fault is
the one told of: a group is checked before its parts, a part before the next one, and the number of the parts
last. One record of the log says how it ended, but for failures of other kinds than filter errors. -/
theorem compile_first_fault (hints : Hints) (group : Entries) :
    ((∃ t, compileGroup hints (.dict group) = .ok t) ↔
      ∀ inner, Group.Nested inner group → ∃ operator items, Group.WellFormed hints inner operator items) ∧
    (∀ failure, compileGroup hints (.dict group) = .error failure ↔
      ∃ before check after, Check.ofGroup group = before ++ check :: after ∧
        (∀ c ∈ before, ∀ other, ¬ Check.Offends hints c other) ∧ Check.Offends hints check failure) ∧
    compile hints (.dict group) = (compileGroup hints (.dict group),
      match compileGroup hints (.dict group) with
      | .ok t => [⟨.debug, "Compiled filter DSL to: " ++ t⟩]
      | .error (.filter error) => [⟨.error, "Error compiling filter DSL: " ++ error.message⟩]
      | .error _ => []) := by
  have hc : compileGroup hints (.dict group) = (Group.elaborate hints group).map Predicate.token := rfl
  refine ⟨?_, ?_, ?_⟩
  · have he : (∃ t, compileGroup hints (.dict group) = .ok t) ↔ ∃ p, Group.elaborate hints group = .ok p := by
      rw [hc]
      cases Group.elaborate hints group <;> simp [Except.map]
    rw [he, Check.elaborate_eq_ok_iff]
    constructor
    · intro h inner hn
      exact (h.nested hn).wellFormed
    · exact Check.passes_of_wellFormed
  · intro failure
    have he : compileGroup hints (.dict group) = .error failure ↔ Group.elaborate hints group = .error failure := by
      rw [hc]
      cases Group.elaborate hints group <;> simp [Except.map]
    rw [he, Check.elaborate_eq_error_iff]
    simp only [Check.failure?_eq_none_iff, Check.failure?_eq_some_iff]
  · rfl

end Filter

end FilterQuery
