import FilterQuery.Proofs.Vocabulary

namespace FilterQuery

theorem bind_eq_ok {ε α β : Type} {x : Except ε α} {f : α → Except ε β} {b : β} :
    (x >>= f) = .ok b ↔ ∃ a, x = .ok a ∧ f a = .ok b := by
  cases x <;> simp [bind, Except.bind]

theorem pure_eq_ok {ε α : Type} {a b : α} : (pure a : Except ε α) = .ok b ↔ a = b := by
  simp [pure, Except.pure]

theorem toOption_eq_some {ε α : Type} {x : Except ε α} {a : α} : x.toOption = some a ↔ x = .ok a := by
  cases x <;> simp [Except.toOption]

namespace Rule

def fieldName? (rule : Entries) : Option Text := (rule.field? fieldKey).bind Value.text?

/-- The literals of a list of values, one for each item. -/
def literals? (d : Datatype) (value : Value) : Option (List Literal) :=
  value.items?.bind (List.mapM fun v => (d.literal v).toOption)

/-- The comparison of a field with a value under a datatype. -/
def comparisonOf? (d : Datatype) (field : Text) (value : Value) : Operator → Option Comparison
  | .equal | .notEqual => (d.literal value).toOption.map fun l => .equal field [l]
  | .isIn | .notIn => (literals? d value).map (.equal field)
  | .isNull | .isNotNull => some (.equal field [.null])
  | .fullText => value.text?.map (.fullText field)
  | .relate relation => (d.literal value).toOption.map (.relate relation field)

/-- The comparison that a rule asks for. -/
def comparison? (hints : Hints) (rule : Entries) : Option Comparison := do
  let field ← fieldName? rule
  let operator ← operator? rule
  if operator.isNullTest then return .equal field [.null]
  let value ← rule.field? valueKey
  comparisonOf? (← (datatype hints rule (.text field) value).toOption) field value operator

theorem asText_eq_ok {v : Value} {t : Text} : v.asText = .ok t ↔ v = .text t := by
  cases v <;> simp [Value.asText]

theorem equalTo_eq_ok {field : Value} {ls : List Literal} {p : Predicate} :
    equalTo field ls = .ok p ↔ ∃ t, field = .text t ∧ p = .compare (.equal t ls) := by
  simp only [equalTo, bind_eq_ok, pure_eq_ok, asText_eq_ok]
  constructor
  · rintro ⟨t, ht, rfl⟩
    exact ⟨t, ht, rfl⟩
  · rintro ⟨t, ht, rfl⟩
    exact ⟨t, ht, rfl⟩

theorem mapM_toOption {items : List Value} {d : Datatype} {ls : List Literal}
    (h : items.mapM d.literal = .ok ls) :
    (items.mapM fun v => (d.literal v).toOption) = some ls := by
  induction items generalizing ls with
  | nil =>
    cases h
    rfl
  | cons v vs ih =>
    simp only [List.mapM_cons, bind_eq_ok, pure_eq_ok] at h
    obtain ⟨l, hl, ls, hls, rfl⟩ := h
    rw [List.mapM_cons, hl, ih hls]
    rfl

theorem single_ok {operator : Operator} {value : Value} {d : Datatype}
    {build : Literal → Except Failure Predicate} {p : Predicate}
    (h : elaborateSingle operator value d build = .ok p) :
    ∃ l, d.literal value = .ok l ∧ build l = .ok p := by
  rw [elaborateSingle] at h
  cases hi : value.items? with
  | some items =>
    rw [hi] at h
    contradiction
  | none =>
    rw [hi] at h
    exact bind_eq_ok.mp h

theorem membership_ok {operator : Operator} {negated : Bool} {field value : Value} {d : Datatype}
    {p : Predicate} (h : elaborateMembership operator negated field value d = .ok p) :
    ∃ t ls, field = .text t ∧ literals? d value = some ls ∧
      p = signed negated (.compare (.equal t ls)) := by
  rw [elaborateMembership] at h
  cases hi : value.items? with
  | none =>
    rw [hi] at h
    contradiction
  | some items =>
    rw [hi] at h
    obtain ⟨ls, hls, h⟩ := bind_eq_ok.mp h
    obtain ⟨q, hq, h⟩ := bind_eq_ok.mp h
    obtain ⟨t, ht, rfl⟩ := equalTo_eq_ok.mp hq
    refine ⟨t, ls, ht, ?_, (pure_eq_ok.mp h).symm⟩
    rw [literals?, hi]
    exact mapM_toOption hls

theorem fullText_ok {field value : Value} {d : Datatype} {p : Predicate}
    (h : elaborateFullText field value d = .ok p) :
    ∃ t s, field = .text t ∧ value = .text s ∧ p = .compare (.fullText t s) := by
  unfold elaborateFullText at h
  split at h
  · obtain ⟨t, ht, h⟩ := bind_eq_ok.mp h
    exact ⟨t, _, asText_eq_ok.mp ht, rfl, (pure_eq_ok.mp h).symm⟩
  · contradiction

/-- What a value turns into under an operator that takes one. -/
theorem elaborateValue_ok {operator : Operator} {field value : Value} {d : Datatype} {p : Predicate}
    (hn : operator.isNullTest = false) (h : elaborateValue operator field value d = .ok p) :
    ∃ t c, field = .text t ∧ comparisonOf? d t value operator = some c ∧
      p = signed operator.isNegated (.compare c) := by
  cases operator with
  | isNull => contradiction
  | isNotNull => contradiction
  | equal =>
    obtain ⟨l, hl, h⟩ := single_ok h
    obtain ⟨t, ht, rfl⟩ := equalTo_eq_ok.mp h
    exact ⟨t, .equal t [l], ht, by rw [comparisonOf?, hl]; rfl, rfl⟩
  | notEqual =>
    obtain ⟨l, hl, h⟩ := single_ok h
    obtain ⟨q, hq, h⟩ := bind_eq_ok.mp h
    obtain ⟨t, ht, rfl⟩ := equalTo_eq_ok.mp hq
    exact ⟨t, .equal t [l], ht, by rw [comparisonOf?, hl]; rfl, (pure_eq_ok.mp h).symm⟩
  | relate relation =>
    obtain ⟨l, hl, h⟩ := single_ok h
    obtain ⟨t, ht, h⟩ := bind_eq_ok.mp h
    exact ⟨t, .relate relation t l, asText_eq_ok.mp ht, by rw [comparisonOf?, hl]; rfl,
      (pure_eq_ok.mp h).symm⟩
  | isIn =>
    obtain ⟨t, ls, ht, hls, rfl⟩ := membership_ok h
    exact ⟨t, .equal t ls, ht, by rw [comparisonOf?, hls]; rfl, rfl⟩
  | notIn =>
    obtain ⟨t, ls, ht, hls, rfl⟩ := membership_ok h
    exact ⟨t, .equal t ls, ht, by rw [comparisonOf?, hls]; rfl, rfl⟩
  | fullText =>
    rw [elaborateValue] at h
    split at h
    · contradiction
    obtain ⟨t, s, ht, rfl, rfl⟩ := fullText_ok h
    exact ⟨t, .fullText t s, ht, rfl, rfl⟩

theorem nullTest_ok {hints : Hints} {rule : Entries} {field : Value} {operator : Operator} {p : Predicate}
    (hn : operator.isNullTest = true) (h : elaborateOperator hints rule field operator = .ok p) :
    ∃ t, field = .text t ∧ p = signed operator.isNegated (.compare (.equal t [.null])) := by
  cases operator with
  | isNull =>
    exact equalTo_eq_ok.mp h
  | isNotNull =>
    obtain ⟨q, hq, h⟩ := bind_eq_ok.mp h
    obtain ⟨t, ht, rfl⟩ := equalTo_eq_ok.mp hq
    exact ⟨t, ht, (pure_eq_ok.mp h).symm⟩
  | _ => contradiction

/-- All operators but the null tests go by the rule's value under its datatype. -/
theorem valued_ok {hints : Hints} {rule : Entries} {field : Value} {operator : Operator} {p : Predicate}
    (hn : operator.isNullTest = false) (h : elaborateOperator hints rule field operator = .ok p) :
    ∃ value d, rule.field? valueKey = some value ∧ datatype hints rule field value = .ok d ∧
      elaborateValue operator field value d = .ok p := by
  unfold elaborateOperator at h
  split at h
  · contradiction
  · contradiction
  · split at h
    · contradiction
    · rename_i value hv
      obtain ⟨d, hd, h⟩ := bind_eq_ok.mp h
      exact ⟨value, d, hv, hd, h⟩

theorem elaborateOperator_ok {hints : Hints} {rule : Entries} {field : Value} {operator : Operator}
    {p : Predicate} (hf : rule.field? fieldKey = some field) (ho : operator? rule = some operator)
    (h : elaborateOperator hints rule field operator = .ok p) :
    ∃ c, comparison? hints rule = some c ∧ p = signed operator.isNegated (.compare c) := by
  have hname : ∀ t, field = .text t → fieldName? rule = some t := by
    rintro t rfl
    rw [fieldName?, hf]
    rfl
  cases hn : operator.isNullTest with
  | true =>
    obtain ⟨t, ht, rfl⟩ := nullTest_ok hn h
    exact ⟨.equal t [.null], by simp [comparison?, hname t ht, ho, hn], rfl⟩
  | false =>
    obtain ⟨value, d, hv, hd, h⟩ := valued_ok hn h
    obtain ⟨t, c, rfl, hc, rfl⟩ := elaborateValue_ok hn h
    exact ⟨c, by simp [comparison?, hname t rfl, ho, hn, hv, hd, hc, Except.toOption], rfl⟩

/-- An accepted rule is its comparison, or the negation of it under a negated operator. -/
theorem elaborate_ok {hints : Hints} {rule : Entries} {p : Predicate}
    (h : elaborate hints rule = .ok p) :
    ∃ operator c, operator? rule = some operator ∧ comparison? hints rule = some c ∧
      p = signed operator.isNegated (.compare c) := by
  rw [elaborate] at h
  split at h
  · rename_i field operator hf ho
    split at h
    · rename_i op hop
      have ho : operator? rule = some op := by
        rw [operator?_eq, ho]
        exact hop
      obtain ⟨c, hc, hp⟩ := elaborateOperator_ok hf ho h
      exact ⟨op, c, ho, hc, hp⟩
    · contradiction
  · contradiction

theorem field?_of_fieldName? {rule : Entries} {field : Text} (h : fieldName? rule = some field) :
    rule.field? fieldKey = some (.text field) := by
  obtain ⟨v, hv, h⟩ := Option.bind_eq_some_iff.mp h
  cases v with
  | text t =>
    cases h
    exact hv
  | _ => contradiction

theorem comparisonOf?_field {d : Datatype} {field : Text} {value : Value} {operator : Operator}
    {c : Comparison} (h : comparisonOf? d field value operator = some c) : c.field = field := by
  cases operator with
  | equal | notEqual | isIn | notIn | fullText | relate =>
    obtain ⟨_, _, rfl⟩ := Option.map_eq_some_iff.mp h
    rfl
  | isNull | isNotNull =>
    cases h
    rfl

theorem comparison?_eq_some {hints : Hints} {rule : Entries} {c : Comparison}
    (h : comparison? hints rule = some c) :
    ∃ field operator, fieldName? rule = some field ∧ operator? rule = some operator ∧
      ((operator.isNullTest = true ∧ c = .equal field [.null]) ∨
        (operator.isNullTest = false ∧ ∃ value d, rule.field? valueKey = some value ∧
          datatype hints rule (.text field) value = .ok d ∧
          comparisonOf? d field value operator = some c)) := by
  obtain ⟨field, hf, h⟩ := Option.bind_eq_some_iff.mp h
  obtain ⟨operator, ho, h⟩ := Option.bind_eq_some_iff.mp h
  refine ⟨field, operator, hf, ho, ?_⟩
  cases hn : operator.isNullTest with
  | true =>
    rw [hn] at h
    cases h
    exact .inl ⟨rfl, rfl⟩
  | false =>
    rw [hn] at h
    obtain ⟨value, hv, h⟩ := Option.bind_eq_some_iff.mp h
    obtain ⟨d, hd, h⟩ := Option.bind_eq_some_iff.mp h
    exact .inr ⟨rfl, value, d, hv, toOption_eq_some.mp hd, h⟩

theorem fieldName?_of_comparison? {hints : Hints} {rule : Entries} {c : Comparison}
    (h : comparison? hints rule = some c) : fieldName? rule = some c.field := by
  obtain ⟨field, operator, hf, _, h⟩ := comparison?_eq_some h
  rcases h with ⟨_, rfl⟩ | ⟨_, value, d, _, _, h⟩
  · exact hf
  · rw [comparisonOf?_field h]
    exact hf

end Rule

end FilterQuery
