import FilterQuery.Proofs.FieldSequence
import FilterQuery.Proofs.PredicateReading

namespace FilterQuery

theorem Datatype.eq_of_ofValue? {v : Value} {d : Datatype} (h : ofValue? v = some d) : v = .text d.name := by
  obtain ⟨t, ht, h⟩ := Option.bind_eq_some_iff.mp h
  have hd := List.find?_some h
  rw [decide_eq_true_eq] at hd
  cases v with
  | text s =>
    cases ht
    rw [hd]
  | _ => contradiction

namespace Filter

theorem fieldDatatype_eq {hints : Hints} {r : Entries} {field : Text} {value : Value} {d : Datatype}
    (hv : r.field? Rule.valueKey = some value) (hd : Rule.datatype hints r (.text field) value = .ok d) :
    fieldDatatype hints r (.text field) = .text d.name := by
  rw [Rule.datatype] at hd
  rw [fieldDatatype]
  cases ho : Rule.ownDatatype? r with
  | some own =>
    simp only [ho] at hd ⊢
    cases hof : Datatype.ofValue? own with
    | some d' =>
      rw [hof] at hd
      cases hd
      exact Datatype.eq_of_ofValue? hof
    | none =>
      rw [hof] at hd
      contradiction
  | none =>
    simp only [ho] at hd ⊢
    cases hd
    rw [hv]
    rfl

/-- The names of the fields that rules have, but for empty ones. -/
def fieldNames (rs : List Entries) : List Text := (rs.filterMap Rule.fieldName?).filter (· ≠ [])

/-- The first of some rules that has a field. -/
def firstRule? (field : Text) (rs : List Entries) : Option Entries :=
  rs.find? fun r => Rule.fieldName? r = some field

/-- The fields of some rules have been found: each once, with the datatype that its first rule shows. -/
structure Collected (hints : Hints) (rs : List Entries) (found : Entries) : Prop where
  keys : found.map Prod.fst = (fieldNames rs).eraseDups.map Value.text
  datatypes : ∀ field, field ≠ [] → found.get? (.text field) =
    (firstRule? field rs).map fun r => fieldDatatype hints r (.text field)

theorem collected_nil (hints : Hints) : Collected hints [] [] := ⟨rfl, fun _ _ => rfl⟩

theorem fieldNames_append (rs : List Entries) {r : Entries} {field : Text}
    (hf : Rule.fieldName? r = some field) :
    fieldNames (rs ++ [r]) = fieldNames rs ++ [field].filter (· ≠ []) := by
  simp only [fieldNames, List.filterMap_append, List.filterMap_cons, hf, List.filterMap_nil,
    List.filter_append]

theorem firstRule?_append (name : Text) (rs : List Entries) {r : Entries} {field : Text}
    (hf : Rule.fieldName? r = some field) :
    firstRule? name (rs ++ [r]) = (firstRule? name rs).or (if field = name then some r else none) := by
  simp only [firstRule?, List.find?_append, List.find?_cons, hf, Option.some.injEq, List.find?_nil]
  split <;> simp_all

theorem firstRule?_of_mem {name : Text} {rs : List Entries} (h : name ∈ fieldNames rs) :
    ∃ r, firstRule? name rs = some r := by
  obtain ⟨r, hr, hn⟩ := List.mem_filterMap.mp (List.mem_filter.mp h).1
  exact Option.isSome_iff_exists.mp (List.find?_isSome.mpr ⟨r, hr, by simpa using hn⟩)

theorem firstRule?_of_not_mem {name : Text} {rs : List Entries} (hne : name ≠ [])
    (h : name ∉ fieldNames rs) : firstRule? name rs = none := by
  refine List.find?_eq_none.mpr ?_
  intro r hr hn
  refine h (List.mem_filter.mpr ⟨List.mem_filterMap.mpr ⟨r, hr, by simpa using hn⟩, by simpa using hne⟩)

theorem Collected.hasKey {hints : Hints} {rs : List Entries} {found : Entries}
    (h : Collected hints rs found) (field : Text) :
    found.hasKey (.text field) = decide (field ∈ fieldNames rs) := by
  rw [Bool.eq_iff_iff, decide_eq_true_eq, ← List.mem_eraseDups, Entries.hasKey, List.any_eq_true]
  constructor
  · rintro ⟨entry, he, hs⟩
    have hk : entry.1 ∈ (fieldNames rs).eraseDups.map Value.text := by
      rw [← h.keys]
      exact List.mem_map_of_mem he
    obtain ⟨name, hn, hk⟩ := List.mem_map.mp hk
    rw [← hk] at hs
    cases of_decide_eq_true hs
    exact hn
  · intro hf
    have hk : Value.text field ∈ found.map Prod.fst := by
      rw [h.keys]
      exact List.mem_map_of_mem hf
    obtain ⟨entry, he, hk⟩ := List.mem_map.mp hk
    refine ⟨entry, he, ?_⟩
    rw [hk]
    exact decide_eq_true rfl

theorem get?_append (found : Entries) (field name : Text) (v : Value) :
    Entries.get? (.text name) (found ++ [(.text field, v)]) =
      (found.get? (.text name)).or (if field = name then some v else none) := by
  have hs : (Value.text field).same (.text name) = decide (field = name) := rfl
  rw [Entries.get?, List.find?_append, List.find?_singleton, Option.map_or, hs, Entries.get?]
  by_cases h : field = name
  · simp [h]
  · simp [h]

/-- A rule with an empty field adds none. -/
theorem Collected.skip {hints : Hints} {rs : List Entries} {found : Entries} {r : Entries}
    (h : Collected hints rs found) (hf : Rule.fieldName? r = some []) : Collected hints (rs ++ [r]) found := by
  refine ⟨?_, ?_⟩
  · rw [fieldNames_append rs hf]
    simpa using h.keys
  · intro name hn
    rw [firstRule?_append name rs hf, if_neg (Ne.symm hn), Option.or_none]
    exact h.datatypes name hn

/-- A rule with a field that was found changes nothing about it. -/
theorem Collected.keep {hints : Hints} {rs : List Entries} {found : Entries} {r : Entries} {field : Text}
    (h : Collected hints rs found) (hf : Rule.fieldName? r = some field) (hm : field ∈ fieldNames rs) :
    Collected hints (rs ++ [r]) found := by
  have hr : ([field].filter (· ≠ [])).removeAll (fieldNames rs) = [] := by
    apply List.filter_eq_nil_iff.mpr
    intro name hn
    rw [List.mem_singleton.mp (List.mem_filter.mp hn).1]
    simpa using hm
  refine ⟨?_, ?_⟩
  · rw [fieldNames_append rs hf, List.eraseDups_append, hr, List.eraseDups_nil, List.append_nil]
    exact h.keys
  · intro name hn
    rw [firstRule?_append name rs hf, h.datatypes name hn]
    split
    · rename_i heq
      obtain ⟨r', hr'⟩ := firstRule?_of_mem (heq ▸ hm)
      rw [hr', Option.some_or]
    · rw [Option.or_none]

/-- A rule with a new field adds it with the datatype that the rule shows. -/
theorem Collected.push {hints : Hints} {rs : List Entries} {found : Entries} {r : Entries} {field : Text}
    (h : Collected hints rs found) (hf : Rule.fieldName? r = some field) (hne : field ≠ [])
    (hm : field ∉ fieldNames rs) :
    Collected hints (rs ++ [r]) (found ++ [(.text field, fieldDatatype hints r (.text field))]) := by
  have hr : ([field].filter (· ≠ [])).removeAll (fieldNames rs) = [field] := by simp [List.removeAll, hm, hne]
  refine ⟨?_, ?_⟩
  · rw [fieldNames_append rs hf, List.eraseDups_append, hr, List.map_append, List.map_append, h.keys]
    rfl
  · intro name hn
    rw [get?_append, firstRule?_append name rs hf, h.datatypes name hn]
    by_cases heq : field = name
    · subst heq
      rw [firstRule?_of_not_mem hn hm, if_pos rfl, if_pos rfl]
      rfl
    · rw [if_neg heq, if_neg heq, Option.or_none, Option.or_none]

/-- One rule more adds its field, unless it is empty or found already. -/
theorem Collected.collect_rule {hints : Hints} {rs : List Entries} {found : Entries} {r : Entries} {field : Text}
    (h : Collected hints rs found) (hf : Rule.fieldName? r = some field) :
    Collected hints (rs ++ [r]) (collect hints found [r]) := by
  by_cases hne : field = []
  · subst hne
    rw [collect_unnamed (by simp [hf])]
    exact h.skip hf
  rw [collect_named hf hne, keepFirst, h.hasKey]
  by_cases hm : field ∈ fieldNames rs
  · rw [if_pos (decide_eq_true hm)]
    exact h.keep hf hm
  · rw [if_neg (by simpa using hm)]
    exact h.push hf hne hm

theorem Collected.collect {hints : Hints} {rs more : List Entries} {found : Entries} (h : Collected hints rs found)
    (hm : ∀ r ∈ more, ∃ field, Rule.fieldName? r = some field) :
    Collected hints (rs ++ more) (collect hints found more) := by
  induction more generalizing rs found with
  | nil => rwa [List.append_nil]
  | cons r more ih =>
    obtain ⟨⟨field, hf⟩, hm⟩ := List.forall_mem_cons.mp hm
    have hc : Filter.collect hints found (r :: more) = Filter.collect hints (Filter.collect hints found [r]) more :=
      collect_append found [r] more
    rw [List.append_cons, hc]
    exact ih (h.collect_rule hf) hm

/-- The rules of an accepted description have fields that are texts. -/
theorem fieldName?_of_elaborates {hints : Hints} {o : Outline} {p : Predicate} (hp : Outline.Elaborates hints o p) :
    ∀ r ∈ o.rules, ∃ field, Rule.fieldName? r = some field := by
  intro r hr
  have hc : Rule.comparison? hints r ∈ p.comparisons.map some := by
    rw [← hp.comparisons]
    exact List.mem_map_of_mem hr
  obtain ⟨c, _, hc⟩ := List.mem_map.mp hc
  exact ⟨c.field, Rule.fieldName?_of_comparison? hc.symm⟩

/-- The fields of an accepted description are those of its rules, in their order, after the fields found before. -/
theorem Collected.addFields {hints : Hints} {node : Entries} {p : Predicate} {rs : List Entries}
    {found : Entries} (hp : Outline.Elaborates hints (.ofNode node) p) (h : Collected hints rs found) :
    ∃ found', addFields hints node found = .ok found' ∧
      Collected hints (rs ++ (Outline.ofNode node).rules) found' := by
  have hf := fieldName?_of_elaborates hp
  refine ⟨Filter.collect hints found (Outline.ofNode node).rules, ?_, h.collect hf⟩
  rw [addFields_eq, if_pos hp.isListed]
  intro r hr v hv
  obtain ⟨field, hn⟩ := hf r hr
  exact ⟨field, Option.some.inj (hv.symm.trans (Rule.field?_of_fieldName? hn))⟩

/-- Rules and comparisons, one to one. -/
theorem fieldNames_eq {hints : Hints} {rs : List Entries} {cs : List Comparison}
    (h : rs.map (Rule.comparison? hints) = cs.map some) :
    fieldNames rs = (cs.map Comparison.field).filter (· ≠ []) := by
  have hf : rs.filterMap Rule.fieldName? = cs.map Comparison.field := by
    induction rs generalizing cs with
    | nil =>
      cases cs with
      | nil => rfl
      | cons => contradiction
    | cons r rs ih =>
      cases cs with
      | nil => contradiction
      | cons c cs =>
        obtain ⟨hc, h⟩ := List.cons.inj h
        rw [List.filterMap_cons_some (Rule.fieldName?_of_comparison? hc), ih h, List.map_cons]
  rw [fieldNames, hf]

theorem find?_comparison {hints : Hints} {rs : List Entries} {cs : List Comparison} {field : Text}
    {r : Entries} (h : rs.map (Rule.comparison? hints) = cs.map some)
    (hr : firstRule? field rs = some r) :
    ∃ c, Rule.comparison? hints r = some c ∧ cs.find? (·.field = field) = some c := by
  induction rs generalizing cs with
  | nil => contradiction
  | cons r' rs ih =>
    cases cs with
    | nil => contradiction
    | cons c cs =>
      obtain ⟨hc, h⟩ := List.cons.inj h
      rw [firstRule?, List.find?_cons, Rule.fieldName?_of_comparison? hc] at hr
      rw [List.find?_cons]
      by_cases hf : c.field = field
      · simp only [hf, decide_true, Option.some.injEq] at hr ⊢
        subst hr
        exact ⟨c, hc, rfl⟩
      · simp only [hf, Option.some.injEq, decide_false] at hr ⊢
        exact ih h hr

/-- The fields of a description that compiles are the distinct non-empty fields of the predicate that its
token reads back as, in the order of first appearance. Where the first rule with a field has a value, the
datatype reported for the field is the one that turned this value into the literals of its comparison. -/
theorem fields_of_compile {hints : Hints} {group : Entries} {t : Text}
    (h : (compile hints (.dict group)).1 = .ok t) :
    ∃ p found, Predicate.read? t = some p ∧ fields hints (.dict group) = .ok found ∧
      found.map Prod.fst =
        ((p.comparisons.map Comparison.field).filter (· ≠ [])).eraseDups.map Value.text ∧
      ∀ field, Value.text field ∈ found.map Prod.fst →
        ∃ r operator c, firstRule? field (Outline.ofNode group).rules = some r ∧
          p.comparisons.find? (·.field = field) = some c ∧ Rule.comparison? hints r = some c ∧
          Rule.operator? r = some operator ∧
          (operator.isNullTest = false → ∃ value d, r.field? Rule.valueKey = some value ∧
            Rule.datatype hints r (.text field) value = .ok d ∧
            Rule.comparisonOf? d field value operator = some c ∧
            found.get? (.text field) = some (.text d.name)) := by
  obtain ⟨p, rfl, hp⟩ := Outline.elaborates_of_compile h
  obtain ⟨found, hf, hc⟩ := (collected_nil hints).addFields hp
  rw [List.nil_append] at hc
  have ha := hp.comparisons
  refine ⟨p, found, Predicate.read?_token p, hf, ?_, ?_⟩
  · rw [hc.keys, fieldNames_eq ha]
  intro field hk
  rw [hc.keys] at hk
  obtain ⟨name, hm, hn⟩ := List.mem_map.mp hk
  cases hn
  rw [List.mem_eraseDups] at hm
  obtain ⟨r, hr⟩ := firstRule?_of_mem hm
  obtain ⟨c, hrc, hpc⟩ := find?_comparison ha hr
  obtain ⟨field', operator, hname, ho, hv⟩ := Rule.comparison?_eq_some hrc
  have hname' : Rule.fieldName? r = some field := by simpa using List.find?_some hr
  cases hname.symm.trans hname'
  refine ⟨r, operator, c, hr, hpc, hrc, ho, ?_⟩
  intro hnull
  rcases hv with ⟨hn, _⟩ | ⟨_, value, d, hv, hd, hof⟩
  · rw [hnull] at hn
    contradiction
  refine ⟨value, d, hv, hd, hof, ?_⟩
  have hne : field ≠ [] := by simpa using (List.mem_filter.mp hm).2
  rw [hc.datatypes field hne, hr, Option.map_some, fieldDatatype_eq hv hd]

/-- A group that also names a field, a rule that also names a group's operator, and a field met twice. -/
theorem fields_of_compile_mixed :
    let group : Entries := [(.text "field_name", .text "g"), (.text "op", .text "AND"),
      (.text "rules", .list [
        .dict [(.text "field_name", .text "b"), (.text "operator", .text ">"), (.text "value", .int 3)],
        .dict [(.text "op", .text "OR"), (.text "field_name", .text "a"), (.text "operator", .text "!="),
          (.text "value", .text "x,")],
        .dict [(.text "field_name", .text "b"), (.text "operator", .text "is null")]])]
    (compile [(.text "a", .string)] (.dict group)).1 = .ok "and(gt(b,3),not(eq(a,$x%2C)),eq(b,null))" ∧
      ∃ p found, Predicate.read? "and(gt(b,3),not(eq(a,$x%2C)),eq(b,null))" = some p ∧
        fields [(.text "a", .string)] (.dict group) = .ok found ∧
        found = [(.text "b", .text "int"), (.text "a", .text "string")] ∧
        found.map Prod.fst =
          ((p.comparisons.map Comparison.field).filter (· ≠ [])).eraseDups.map Value.text := by
  intro group
  have h : (compile [(.text "a", .string)] (.dict group)).1 =
      .ok "and(gt(b,3),not(eq(a,$x%2C)),eq(b,null))" := by with_unfolding_all rfl
  have hf : fields [(.text "a", .string)] (.dict group) =
      .ok [(.text "b", .text "int"), (.text "a", .text "string")] := by with_unfolding_all rfl
  obtain ⟨p, found, hp, hfound, hk, _⟩ := fields_of_compile h
  exact ⟨h, p, found, hp, hfound, Except.ok.inj (hfound.symm.trans hf), hk⟩

end Filter

end FilterQuery
