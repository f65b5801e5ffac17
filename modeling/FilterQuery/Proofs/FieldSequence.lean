import FilterQuery.Filter.Fields
import FilterQuery.Proofs.Entries
import FilterQuery.Proofs.Outline

namespace FilterQuery

namespace Outline

/-- What is come by in an outline: itself, and what is come by in the parts of a group. -/
inductive Visits : Outline → Outline → Prop
  | self (o : Outline) : Visits o o
  | part {operator : Option GroupOperator} {parts : List Outline} {part o : Outline} (hp : part ∈ parts)
      (h : Visits part o) : Visits (.group operator parts) o

mutual

/-- Whether the rules of every group are a list. -/
def isListed : Outline → Bool
  | rule _ => true
  | group _ parts => areListed parts
  | unlisted => false
  | stray => true

def areListed : List Outline → Bool
  | [] => true
  | o :: os => isListed o && areListed os

end

mutual

theorem isListed_eq_false_iff (o : Outline) : o.isListed = false ↔ o.Visits .unlisted := by
  match o with
  | .rule _ =>
    rw [isListed]
    exact iff_of_false Bool.noConfusion nofun
  | .group operator parts =>
    rw [isListed, areListed_eq_false_iff parts]
    constructor
    · rintro ⟨part, hp, h⟩
      exact .part hp h
    · rintro (_ | ⟨hp, h⟩)
      exact ⟨_, hp, h⟩
  | .unlisted => exact iff_of_true rfl (.self _)
  | .stray =>
    rw [isListed]
    exact iff_of_false Bool.noConfusion nofun

theorem areListed_eq_false_iff (os : List Outline) : areListed os = false ↔ ∃ o ∈ os, o.Visits .unlisted := by
  match os with
  | [] => simp [areListed]
  | o :: rest =>
    rw [areListed, Bool.and_eq_false_iff, isListed_eq_false_iff o, areListed_eq_false_iff rest]
    simp

end

theorem isListed_iff {o : Outline} : o.isListed = true ↔ ¬ o.Visits .unlisted := by
  rw [← isListed_eq_false_iff, Bool.not_eq_false]

mutual

/-- In an accepted description rules are lists. -/
theorem Elaborates.isListed {hints : Hints} {o : Outline} {p : Predicate} (h : Elaborates hints o p) :
    o.isListed = true := by
  match h with
  | .rule _ _ => rfl
  | .all hs => exact hs.areListed
  | .any hs => exact hs.areListed
  | .negation h => rw [Outline.isListed, Outline.areListed, h.isListed]; rfl
  | .negations hs => exact hs.areListed

theorem ElaborateAll.areListed {hints : Hints} {os : List Outline} {ps : List Predicate}
    (hs : ElaborateAll hints os ps) : Outline.areListed os = true := by
  match hs with
  | .nil => rfl
  | .cons h hs => rw [Outline.areListed, h.isListed, hs.areListed]; rfl

end

theorem ofItems_of_other {v : Value} (hv : ∀ entries, v ≠ .dict entries) (rest : List Value) :
    ofItems (v :: rest) = stray :: ofItems rest := by
  rw [ofItems]
  exact hv

end Outline

namespace Rule

/-- The field that a rule names, if it names one, is a text. -/
def NamesText (r : Entries) : Prop := ∀ v, r.field? fieldKey = some v → ∃ t, v = .text t

/-- A rule names no datatype, or a blank one. -/
def LeavesOpen (r : Entries) : Prop := ∀ v, r.field? datatypeKey = some v → v.truth = false

/-- The datatype that a rule shows for a field: its own, else the hint, else the one that its value suggests. -/
inductive Shows (hints : Hints) (r : Entries) (field : Text) : Value → Prop
  | own {v : Value} (hv : r.field? datatypeKey = some v) (ht : v.truth = true) : Shows hints r field v
  | hint {d : Datatype} (ho : LeavesOpen r) (hd : hints.get? (.text field) = some d) :
      Shows hints r field (.text d.name)
  | value (ho : LeavesOpen r) (hd : hints.get? (.text field) = none) :
      Shows hints r field (.text (Datatype.infer ((r.field? valueKey).getD .null)).name)

theorem leavesOpen_iff {r : Entries} : LeavesOpen r ↔ ownDatatype? r = none := by
  rw [LeavesOpen, ownDatatype?, Option.filter_eq_none_iff]
  simp

end Rule

namespace Filter

theorem fieldDatatype_eq_iff {hints : Hints} {r : Entries} {field : Text} {v : Value} :
    fieldDatatype hints r (.text field) = v ↔ Rule.Shows hints r field v := by
  rw [fieldDatatype]
  constructor
  · rintro rfl
    cases ho : Rule.ownDatatype? r with
    | some own =>
      obtain ⟨hv, ht⟩ := Option.filter_eq_some_iff.mp ho
      exact .own hv ht
    | none =>
      cases hd : hints.get? (.text field) with
      | some d => exact .hint (Rule.leavesOpen_iff.mpr ho) hd
      | none => exact .value (Rule.leavesOpen_iff.mpr ho) hd
  · intro h
    cases h with
    | own hv ht => rw [Rule.ownDatatype?, hv, Option.filter_some, if_pos ht]
    | hint ho hd => rw [Rule.leavesOpen_iff.mp ho, hd]; rfl
    | value ho hd => rw [Rule.leavesOpen_iff.mp ho, hd]; rfl

/-- A rule's field, unless it has none or an empty one, and the datatype that the rule shows for it. -/
def shownField? (hints : Hints) (r : Entries) : Option (Text × Value) :=
  ((Rule.fieldName? r).filter (· ≠ [])).map fun field => (field, fieldDatatype hints r (.text field))

theorem shownField?_named {hints : Hints} {r : Entries} {field : Text} (hf : Rule.fieldName? r = some field)
    (hne : field ≠ []) : shownField? hints r = some (field, fieldDatatype hints r (.text field)) := by
  rw [shownField?, hf, Option.filter_some, if_pos (decide_eq_true hne), Option.map_some]

theorem shownField?_unnamed {hints : Hints} {r : Entries} (hf : (Rule.fieldName? r).getD [] = []) :
    shownField? hints r = none := by
  cases hn : Rule.fieldName? r with
  | none => rw [shownField?, hn]; rfl
  | some field =>
    rw [hn, Option.getD_some] at hf
    rw [shownField?, hn, hf]
    rfl

theorem shownField?_eq_some_iff {hints : Hints} {r : Entries} {field : Text} {v : Value} :
    shownField? hints r = some (field, v) ↔
      Rule.fieldName? r = some field ∧ field ≠ [] ∧ Rule.Shows hints r field v := by
  rw [← fieldDatatype_eq_iff]
  constructor
  · intro h
    obtain ⟨name, hn, he⟩ := Option.map_eq_some_iff.mp h
    cases he
    obtain ⟨hf, hne⟩ := Option.filter_eq_some_iff.mp hn
    exact ⟨hf, of_decide_eq_true hne, rfl⟩
  · rintro ⟨hf, hne, rfl⟩
    exact shownField?_named hf hne

/-- A field at the end of those found, unless it is there already. -/
def keepFirst (found : Entries) (entry : Text × Value) : Entries :=
  if found.hasKey (.text entry.1) then found else found ++ [(.text entry.1, entry.2)]

/-- The fields of rules after those found before, each as the first rule with it shows it. -/
def collect (hints : Hints) (found : Entries) (rs : List Entries) : Entries :=
  (rs.filterMap (shownField? hints)).foldl keepFirst found

variable {hints : Hints}

theorem collect_append (found : Entries) (rs rs' : List Entries) :
    collect hints found (rs ++ rs') = collect hints (collect hints found rs) rs' := by
  simp [collect]

theorem collect_unnamed {r : Entries} (hf : (Rule.fieldName? r).getD [] = []) (found : Entries) :
    collect hints found [r] = found := by
  rw [collect, List.filterMap_cons_none (shownField?_unnamed hf)]
  rfl

theorem collect_named {r : Entries} {field : Text} (hf : Rule.fieldName? r = some field) (hne : field ≠ [])
    (found : Entries) :
    collect hints found [r] = keepFirst found (field, fieldDatatype hints r (.text field)) := by
  rw [collect, List.filterMap_cons_some (shownField?_named hf hne)]
  rfl

theorem addField_eq {r : Entries} (hr : Rule.NamesText r) (found : Entries) :
    addField hints r found = .ok (collect hints found [r]) := by
  rw [addField]
  cases hf : r.field? Rule.fieldKey with
  | none =>
    rw [collect_unnamed (by simp [Rule.fieldName?, hf])]
    rfl
  | some v =>
    obtain ⟨field, rfl⟩ := hr v hf
    have hn : Rule.fieldName? r = some field := by simp [Rule.fieldName?, hf, Value.text?]
    cases field with
    | nil =>
      rw [collect_unnamed (by simp [hn])]
      rfl
    | cons c field =>
      rw [collect_named hn (List.cons_ne_nil c field), keepFirst]
      change (if found.hasKey _ then _ else _) = Except.ok (if found.hasKey _ then _ else _)
      split <;> rfl

theorem addFields_of_list {node : Entries} {items : List Value}
    (h : node.field? Group.rulesKey = some (.list items)) (found : Entries) :
    addFields hints node found = addItemFields hints items found := by
  rw [addFields]
  split
  · rename_i items' h'
    cases h.symm.trans h'
    rfl
  · rename_i v hv h'
    cases h.symm.trans h'
    exact absurd rfl (hv items)
  · rename_i h'
    cases h.symm.trans h'

theorem addFields_of_none {node : Entries} (h : node.field? Group.rulesKey = none) (found : Entries) :
    addFields hints node found = addField hints node found := by
  rw [addFields]
  split
  · rename_i h'
    cases h.symm.trans h'
  · rename_i h'
    cases h.symm.trans h'
  · rfl

theorem addFields_of_other {node : Entries} {v : Value} (h : node.field? Group.rulesKey = some v)
    (hv : ∀ items, v ≠ .list items) (found : Entries) :
    addFields hints node found = .error (.filter .fieldsOfNonList) := by
  rw [addFields]
  split
  · rename_i items h'
    exact absurd (Option.some.inj (h.symm.trans h')) (hv items)
  · rfl
  · rename_i h'
    cases h.symm.trans h'

theorem addItemFields_of_other {v : Value} (hv : ∀ entries, v ≠ .dict entries) (rest : List Value) (found : Entries) :
    addItemFields hints (v :: rest) found = addItemFields hints rest found := by
  rw [addItemFields]
  exact hv

mutual

/-- Going through a description adds the fields of its rules in their order, up to rules that are no list. -/
theorem addFields_eq {node : Entries} (hn : ∀ r ∈ (Outline.ofNode node).rules, Rule.NamesText r) (found : Entries) :
    addFields hints node found =
      if (Outline.ofNode node).isListed then .ok (collect hints found (Outline.ofNode node).rules)
      else .error (.filter .fieldsOfNonList) := by
  cases hr : node.field? Group.rulesKey with
  | none =>
    rw [Outline.ofNode_of_none hr] at hn ⊢
    rw [addFields_of_none hr, addField_eq (hn node (by simp [Outline.rules]))]
    simp [Outline.isListed, Outline.rules]
  | some v =>
    by_cases hv : ∃ items, v = .list items
    · obtain ⟨items, rfl⟩ := hv
      have := Entries.sizeOf_field? hr
      rw [Outline.ofNode_of_list hr] at hn ⊢
      rw [addFields_of_list hr, Outline.isListed, Outline.rules]
      exact addItemFields_eq hn found
    · rw [not_exists] at hv
      rw [Outline.ofNode_of_other hr hv, addFields_of_other hr hv]
      rfl
termination_by sizeOf node
decreasing_by simp only [Value.list.sizeOf_spec] at this; omega

theorem addItemFields_eq {items : List Value}
    (hn : ∀ r ∈ Outline.allRules (Outline.ofItems items), Rule.NamesText r) (found : Entries) :
    addItemFields hints items found =
      if Outline.areListed (Outline.ofItems items) then
        .ok (collect hints found (Outline.allRules (Outline.ofItems items)))
      else .error (.filter .fieldsOfNonList) := by
  match items with
  | [] =>
    rw [addItemFields, Outline.ofItems]
    rfl
  | v :: rest =>
    by_cases hd : ∃ entries, v = .dict entries
    · obtain ⟨entries, hv⟩ := hd
      rw [hv, Outline.ofItems, Outline.allRules, List.forall_mem_append] at hn
      rw [hv, addItemFields, Outline.ofItems, Outline.areListed, Outline.allRules, addFields_eq hn.1, collect_append]
      cases (Outline.ofNode entries).isListed with
      | false => rfl
      | true => exact addItemFields_eq hn.2 _
    -- What is no dictionary is passed over in the description and has no rules in the outline.
    · have hv : ∀ entries, v ≠ .dict entries := not_exists.mp hd
      rw [Outline.ofItems_of_other hv] at hn ⊢
      rw [addItemFields_of_other hv]
      exact addItemFields_eq hn found
termination_by sizeOf items
decreasing_by
  · simp only [hv, List.cons.sizeOf_spec, Value.dict.sizeOf_spec]
    omega
  all_goals simp only [List.cons.sizeOf_spec]; omega

end

theorem hasKey_append (found more : Entries) (key : Value) :
    Entries.hasKey key (found ++ more) = (found.hasKey key || more.hasKey key) := List.any_append

/-- Leaving out entries with other keys does not hide a key. -/
theorem hasKey_filter {found : Entries} {field : Text} (h : found.hasKey (.text field) = false) (more : Entries) :
    Entries.hasKey (.text field) (more.filter fun entry => !found.hasKey entry.1) = more.hasKey (.text field) := by
  rw [Entries.hasKey, Entries.hasKey, List.any_filter]
  refine List.any_congr rfl ?_
  intro entry
  rw [Entries.same_text]
  cases hk : entry.1.isText field with
  | false => exact Bool.and_false _
  | true => rw [Entries.isText_iff.mp hk, h]; rfl

/-- One more field after some found, less those found already. -/
theorem keepFirst_append (found kept : Entries) (entry : Text × Value) :
    keepFirst (found ++ kept.filter fun other => !found.hasKey other.1) entry =
      found ++ (keepFirst kept entry).filter fun other => !found.hasKey other.1 := by
  rw [keepFirst, keepFirst, hasKey_append]
  cases hf : found.hasKey (.text entry.1) with
  | true =>
    rw [Bool.true_or, if_pos rfl]
    split <;> simp [hf]
  | false =>
    rw [Bool.false_or, hasKey_filter hf]
    split <;> simp [hf]

/-- Fields kept after some were found are those kept by themselves, less the ones found. -/
theorem foldl_keepFirst (found kept : Entries) (entries : List (Text × Value)) :
    entries.foldl keepFirst (found ++ kept.filter fun other => !found.hasKey other.1) =
      found ++ (entries.foldl keepFirst kept).filter fun other => !found.hasKey other.1 := by
  induction entries generalizing kept with
  | nil => rfl
  | cons entry entries ih => rw [List.foldl_cons, List.foldl_cons, keepFirst_append, ih]

/-- Going on with more rules adds the fields that are new among theirs. -/
theorem collect_eq_append (found : Entries) (rs : List Entries) :
    collect hints found rs = found ++ (collect hints [] rs).filter fun entry => !found.hasKey entry.1 := by
  have h := foldl_keepFirst found [] (rs.filterMap (shownField? hints))
  rwa [List.filter_nil, List.append_nil] at h

theorem fields_eq {node : Entries} (hn : ∀ r ∈ (Outline.ofNode node).rules, Rule.NamesText r)
    (hl : ¬ (Outline.ofNode node).Visits .unlisted) :
    fields hints (.dict node) = .ok (collect hints [] (Outline.ofNode node).rules) := by
  rw [fields, addFields_eq hn, if_pos (Outline.isListed_iff.mpr hl)]

/-- Where the fields of rules are texts, looking for the fields of a description fails exactly if it comes by a group
whose rules are no list. Else the fields are those collected from its rules in order, however these are grouped, and
the fields of two sequences of rules in a row are those of the first and then the new ones of the second. -/
theorem fields_of_rule_sequence {node : Entries} (hn : ∀ r ∈ (Outline.ofNode node).rules, Rule.NamesText r) :
    ((∃ error, fields hints (.dict node) = .error (.filter error)) ↔ (Outline.ofNode node).Visits .unlisted) ∧
    (∀ r field v, shownField? hints r = some (field, v) ↔
      Rule.fieldName? r = some field ∧ field ≠ [] ∧ Rule.Shows hints r field v) ∧
    (¬ (Outline.ofNode node).Visits .unlisted →
      fields hints (.dict node) = .ok (collect hints [] (Outline.ofNode node).rules) ∧
      (∀ other, (Outline.ofNode other).rules = (Outline.ofNode node).rules →
        ¬ (Outline.ofNode other).Visits .unlisted → fields hints (.dict other) = fields hints (.dict node)) ∧
      ∀ first second, (Outline.ofNode node).rules = (Outline.ofNode first).rules ++ (Outline.ofNode second).rules →
        ¬ (Outline.ofNode first).Visits .unlisted → ¬ (Outline.ofNode second).Visits .unlisted →
        ∃ found more, fields hints (.dict first) = .ok found ∧ fields hints (.dict second) = .ok more ∧
          fields hints (.dict node) = .ok (found ++ more.filter fun entry => !found.hasKey entry.1)) := by
  refine ⟨⟨?_, ?_⟩, fun _ _ _ => shownField?_eq_some_iff, ?_⟩
  · rintro ⟨error, he⟩
    rw [← Outline.isListed_eq_false_iff]
    cases hl : (Outline.ofNode node).isListed with
    | false => rfl
    | true =>
      rw [fields_eq hn (Outline.isListed_iff.mp hl)] at he
      contradiction
  · intro hv
    refine ⟨.fieldsOfNonList, ?_⟩
    rw [fields, addFields_eq hn, (Outline.isListed_eq_false_iff _).mpr hv]
    rfl
  intro hl
  refine ⟨fields_eq hn hl, ?_, ?_⟩
  · intro other ho hlo
    rw [fields_eq hn hl, fields_eq (by rwa [ho]) hlo, ho]
  · intro first second hr hlf hls
    rw [hr, List.forall_mem_append] at hn
    refine ⟨_, _, fields_eq hn.1 hlf, fields_eq hn.2 hls, ?_⟩
    rw [fields_eq (by rwa [hr, List.forall_mem_append]) hl, hr, collect_append, collect_eq_append]

/-- A field under a hint, one in a nested group, one met before, and parts that are no dictionaries. -/
theorem fields_of_rule_sequence_nested :
    let hints : Hints := [(.text "a", .float)]
    let a : Entries := [(.text "field_name", .text "a"), (.text "value", .int 1)]
    let b : Entries := [(.text "field_name", .text "b"), (.text "value", .list [.bool true])]
    let c : Entries := [(.text "field_name", .text "a"), (.text "dtype", .text "int")]
    let inner : Entries := [(.text "rules", .list [.dict b, .text "x"])]
    let node : Entries := [(.text "rules", .list [.null, .dict a, .dict inner, .dict c])]
    let flat : Entries := [(.text "op", .text "AND"), (.text "rules", .list [.dict a, .dict b, .dict c])]
    (∀ r ∈ (Outline.ofNode node).rules, Rule.NamesText r) ∧ ¬ (Outline.ofNode node).Visits .unlisted ∧
      (Outline.ofNode flat).rules = (Outline.ofNode node).rules ∧ ¬ (Outline.ofNode flat).Visits .unlisted ∧
      fields hints (.dict flat) = fields hints (.dict node) ∧
      fields hints (.dict node) = .ok [(.text "a", .text "float"), (.text "b", .text "boolean")] := by
  intro hints a b c inner node flat
  have ha : Outline.ofNode a = .rule a := Outline.ofNode_of_none rfl
  have hb : Outline.ofNode b = .rule b := Outline.ofNode_of_none rfl
  have hc : Outline.ofNode c = .rule c := Outline.ofNode_of_none rfl
  have hinner : Outline.ofNode inner = .group none [.rule b, .stray] := by
    rw [Outline.ofNode_of_list rfl]
    simp only [Outline.ofItems, hb]
    rfl
  have hnode : Outline.ofNode node = .group none [.stray, .rule a, .group none [.rule b, .stray], .rule c] := by
    rw [Outline.ofNode_of_list rfl]
    simp only [Outline.ofItems, ha, hinner, hc]
    rfl
  have hflat : Outline.ofNode flat = .group (some .all) [.rule a, .rule b, .rule c] := by
    rw [Outline.ofNode_of_list rfl]
    simp only [Outline.ofItems, ha, hb, hc]
    rfl
  have hn : ∀ r ∈ (Outline.ofNode node).rules, Rule.NamesText r := by
    have hrules : (Outline.ofNode node).rules = [a, b, c] := by
      rw [hnode]
      rfl
    rw [hrules]
    have hnamed (r : Entries) (t : Text) (h : r.field? Rule.fieldKey = some (.text t)) : Rule.NamesText r :=
      fun v hv => ⟨t, Option.some.inj (hv.symm.trans h)⟩
    simp only [List.forall_mem_cons]
    exact ⟨hnamed a "a" rfl, hnamed b "b" rfl, hnamed c "a" rfl, List.forall_mem_nil _⟩
  have hl : ¬ (Outline.ofNode node).Visits .unlisted := by
    rw [hnode, ← Outline.isListed_iff]
    rfl
  have hlf : ¬ (Outline.ofNode flat).Visits .unlisted := by
    rw [hflat, ← Outline.isListed_iff]
    rfl
  have hr : (Outline.ofNode flat).rules = (Outline.ofNode node).rules := by
    rw [hflat, hnode]
    rfl
  obtain ⟨-, -, hfields⟩ := @fields_of_rule_sequence hints node hn
  obtain ⟨hf, hsame, -⟩ := hfields hl
  refine ⟨hn, hl, hr, hlf, hsame flat hr hlf, ?_⟩
  rw [hf, hnode]
  rfl

end Filter

end FilterQuery
