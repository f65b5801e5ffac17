import FilterQuery.Filter.Compile
import FilterQuery.Proofs.Conversion
import FilterQuery.Proofs.Parts
import Mathlib.Logic.Relation

namespace FilterQuery

namespace Operator

/-- The spellings of a negated operator and of the one that it negates. -/
inductive Negated : Text → Text → Prop
  | notEqual : Negated "!=" "=="
  | notIn : Negated "not in" "in"
  | isNotNull : Negated "is not null" "is null"

/-- The operator that a negated one negates. -/
def positive? : Operator → Option Operator
  | notEqual => some equal
  | notIn => some isIn
  | isNotNull => some isNull
  | _ => none

theorem Negated.operators {negative positive : Text} (h : Negated negative positive) :
    ∃ operator base, vocabulary.lookup negative = some operator ∧ vocabulary.lookup positive = some base ∧
      operator.positive? = some base := by
  cases h <;> exact ⟨_, _, rfl, rfl, rfl⟩

theorem isNullTest_positive {operator base : Operator} (h : operator.positive? = some base) :
    base.isNullTest = operator.isNullTest := by
  cases operator <;> cases h <;> rfl

end Operator

/-- What succeeds where something else does, with the negation of its predicate. -/
def Negates (x y : Except Failure Predicate) : Prop := ∀ p, x = .ok p ↔ ∃ q, y = .ok q ∧ Predicate.not q = p

theorem negates_error (failure other : Failure) : Negates (.error failure) (.error other) := by
  intro p
  simp

theorem Negates.bind {α : Type} (x : Except Failure α) {f g : α → Except Failure Predicate}
    (h : ∀ a, Negates (f a) (g a)) : Negates (x >>= f) (x >>= g) := by
  cases x with
  | error failure => exact negates_error failure failure
  | ok a => exact h a

theorem negates_ok (q : Predicate) : Negates (.ok (.not q)) (.ok q) := by
  intro p
  simp

theorem negates_signed (y : Except Failure Predicate) : Negates (do return Rule.signed true (← y)) y := by
  have h : Negates (y >>= fun q => pure (.not q)) (y >>= pure) := Negates.bind y negates_ok
  rw [bind_pure] at h
  exact h

/-- A negation of one part. -/
theorem Group.Joins.elaborate_negates {hints : Hints} {group : Entries} {v : Value}
    (h : Group.Joins group .negation [v]) : Negates (Group.elaborate hints group) (Group.elaboratePart hints v) := by
  intro p
  rw [h.elaborate_eq_ok_iff]
  simp only [List.mapM_cons, List.mapM_nil, bind_eq_ok, pure_eq_ok]
  constructor
  · rintro ⟨_, ⟨q, hq, _, rfl, rfl⟩, h⟩
    exact ⟨q, hq, Except.ok.inj h⟩
  · rintro ⟨q, hq, rfl⟩
    exact ⟨[q], ⟨q, hq, [], rfl, rfl⟩, rfl⟩

namespace Rule

variable {hints : Hints} {rule : Entries} {field value : Value} {operator base : Operator} {p : Predicate}

/-- A rule with another operator, as it is spelled. -/
def withOperator (rule : Entries) (spelling : Text) : Entries :=
  rule.insert (.text operatorKey) (.text spelling)

/-- The rule that asks whether its field equals null. -/
def nullEquality (rule : Entries) : Entries :=
  ((withOperator rule "==").insert (.text valueKey) .null).remove datatypeKey

/-- The rule that asks whether its field is in a list of one value. -/
def singleMembership (rule : Entries) (value : Value) : Entries :=
  (withOperator rule "in").insert (.text valueKey) (.list [value])

/-- What a rule may be rewritten to. -/
inductive Desugars (rule : Entries) : Entries → Prop
  | negated {negative positive : Text} {group : Entries} (ho : rule.field? operatorKey = some (.text negative))
      (hn : Operator.Negated negative positive)
      (hg : Group.Joins group .negation [.dict (withOperator rule positive)]) : Desugars rule group
  | isNull (ho : rule.field? operatorKey = some (.text "is null")) : Desugars rule (nullEquality rule)
  | equal {value : Value} (ho : rule.field? operatorKey = some (.text "==")) (hv : rule.field? valueKey = some value)
      (hi : value.items? = none) : Desugars rule (singleMembership rule value)

theorem operator?_withOperator (rule : Entries) {spelling : Text}
    (h : Operator.vocabulary.lookup spelling = some operator) :
    operator? (withOperator rule spelling) = some operator :=
  operator?_of_field? (Entries.field?_insert operatorKey _ rule) h

theorem field?_withOperator {key : Text} (hk : operatorKey ≠ key) (rule : Entries) (spelling : Text) :
    (withOperator rule spelling).field? key = rule.field? key :=
  Entries.field?_insert_of_ne hk _ rule

theorem field?_nullEquality {key : Text} (ho : operatorKey ≠ key) (hv : valueKey ≠ key) (hd : datatypeKey ≠ key)
    (rule : Entries) : (nullEquality rule).field? key = rule.field? key := by
  rw [nullEquality, Entries.field?_remove_of_ne hd, Entries.field?_insert_of_ne hv, field?_withOperator ho]

theorem field?_singleMembership {key : Text} (ho : operatorKey ≠ key) (hv : valueKey ≠ key) (rule : Entries)
    (value : Value) : (singleMembership rule value).field? key = rule.field? key := by
  rw [singleMembership, Entries.field?_insert_of_ne hv, field?_withOperator ho]

/-- A rule with an operator needs a field, and the operator decides what follows. -/
theorem elaborate_eq_ok_iff (ho : operator? rule = some operator) : elaborate hints rule = .ok p ↔
    ∃ field, rule.field? fieldKey = some field ∧ elaborateOperator hints rule field operator = .ok p := by
  obtain ⟨v, hv, ho⟩ := ofValue?_of_operator? ho
  rw [elaborate, hv]
  cases rule.field? fieldKey with
  | none => simp [faulty]
  | some field => simp [ho]

/-- An operator asks a rule for its value and its datatype, and for nothing else. -/
theorem elaborateOperator_congr {rule' : Entries} (hv : rule'.field? valueKey = rule.field? valueKey)
    (hd : rule'.field? datatypeKey = rule.field? datatypeKey) (field : Value) (operator : Operator) :
    elaborateOperator hints rule' field operator = elaborateOperator hints rule field operator := by
  have hd' (value : Value) : datatype hints rule' field value = datatype hints rule field value := by
    rw [datatype, datatype, ownDatatype?, ownDatatype?, hd]
  simp only [elaborateOperator, hv, hd']

theorem elaborateValue_negates (hb : operator.positive? = some base) (hn : operator.isNullTest = false)
    (field value : Value) (d : Datatype) :
    Negates (elaborateValue operator field value d) (elaborateValue base field value d) := by
  cases operator with
  | notEqual =>
    cases hb
    have he : elaborateValue .equal field value d = elaborateSingle .equal value d fun l => equalTo field [l] := rfl
    rw [he, elaborateValue, elaborateSingle, elaborateSingle]
    cases value.items? with
    | some items => exact negates_error _ _
    | none => exact Negates.bind _ fun l => negates_signed (equalTo field [l])
  | notIn =>
    cases hb
    rw [elaborateValue, elaborateValue, elaborateMembership, elaborateMembership]
    cases value.items? with
    | none => exact negates_error _ _
    | some items => exact Negates.bind _ fun literals => Negates.bind _ negates_ok
  | isNotNull => contradiction
  | _ => contradiction

/-- A negated operator accepts what its positive one does, and negates it. -/
theorem elaborateOperator_negates (hb : operator.positive? = some base) (rule : Entries) (field : Value) :
    Negates (elaborateOperator hints rule field operator) (elaborateOperator hints rule field base) := by
  cases hn : operator.isNullTest with
  | true =>
    cases operator with
    | isNotNull =>
      cases hb
      exact negates_signed (equalTo field [.null])
    | _ => contradiction
  | false =>
    have hn' := (Operator.isNullTest_positive hb).trans hn
    rw [elaborateOperator_eq hn, elaborateOperator_eq hn']
    cases rule.field? valueKey with
    | none => exact negates_error _ _
    | some value => exact Negates.bind _ (elaborateValue_negates hb hn field value)

/-- An equality with null needs no datatype but a field that could have a hint, as any text could. -/
theorem elaborateOperator_equal_null (hd : rule.field? datatypeKey = none) (hv : rule.field? valueKey = some .null)
    (field : Value) :
    elaborateOperator hints rule field .equal = .ok p ↔ elaborateOperator hints rule field .isNull = .ok p := by
  have hl (d : Datatype) : elaborateValue .equal field .null d = equalTo field [.null] := rfl
  rw [elaborateOperator_eq rfl, hv]
  simp only [bind_eq_ok, hl, elaborateOperator]
  constructor
  · rintro ⟨_, -, h⟩
    exact h
  · intro h
    obtain ⟨t, rfl, -⟩ := equalTo_eq_ok.mp h
    refine ⟨(hints.get? (.text t)).getD (Datatype.infer .null), ?_, h⟩
    rw [datatype, ownDatatype?, hd]
    rfl

/-- Membership in a list of one value is equality with it, under the same datatype. -/
theorem elaborateOperator_isIn_singleton {rule' : Entries}
    (hd : rule'.field? datatypeKey = rule.field? datatypeKey)
    (hv : rule.field? valueKey = some value) (hv' : rule'.field? valueKey = some (.list [value]))
    (hi : value.items? = none) (field : Value) :
    elaborateOperator hints rule' field .isIn = elaborateOperator hints rule field .equal := by
  have ht : datatype hints rule' field (.list [value]) = datatype hints rule field value := by
    have hs : Datatype.infer (.list [value]) = Datatype.infer value := by
      rw [Datatype.infer, Datatype.infer, hi]
      rfl
    rw [datatype, datatype, ownDatatype?, ownDatatype?, hd, hs]
  have he (d : Datatype) : elaborateValue .isIn field (.list [value]) d = elaborateValue .equal field value d := by
    change elaborateMembership .isIn false field (.list [value]) d =
      elaborateSingle .equal value d fun l => equalTo field [l]
    rw [elaborateMembership, elaborateSingle, hi]
    simp only [Value.items?, List.mapM_cons, List.mapM_nil]
    cases d.literal value with
    | error failure => rfl
    | ok l => cases field <;> rfl
  rw [elaborateOperator_eq rfl, elaborateOperator_eq rfl, hv, hv']
  dsimp only
  rw [ht, funext he]

theorem elaborate_withOperator_negates {negative positive : Text} (hints : Hints)
    (ho : rule.field? operatorKey = some (.text negative)) (hn : Operator.Negated negative positive) :
    Negates (elaborate hints rule) (elaborate hints (withOperator rule positive)) := by
  intro p
  obtain ⟨operator, base, hoperator, hbase, hb⟩ := hn.operators
  have hc (field : Value) : elaborateOperator hints (withOperator rule positive) field base =
      elaborateOperator hints rule field base :=
    elaborateOperator_congr (field?_withOperator (by decide) rule positive)
      (field?_withOperator (by decide) rule positive) field base
  have hf : (withOperator rule positive).field? fieldKey = rule.field? fieldKey :=
    field?_withOperator (by decide) rule positive
  rw [elaborate_eq_ok_iff (operator?_of_field? ho hoperator)]
  simp only [elaborate_eq_ok_iff (operator?_withOperator rule hbase), hf, hc, elaborateOperator_negates hb rule _ p]
  constructor
  · rintro ⟨field, hf, q, hq, rfl⟩
    exact ⟨q, ⟨field, hf, hq⟩, rfl⟩
  · rintro ⟨q, ⟨field, hf, hq⟩, rfl⟩
    exact ⟨field, hf, q, hq, rfl⟩

theorem elaborate_nullEquality (ho : rule.field? operatorKey = some (.text "is null")) :
    elaborate hints (nullEquality rule) = .ok p ↔ elaborate hints rule = .ok p := by
  have ho' : operator? (nullEquality rule) = some .equal := by
    rw [operator?, nullEquality, Entries.field?_remove_of_ne (by decide), Entries.field?_insert_of_ne (by decide)]
    exact operator?_withOperator rule rfl
  have hv : (nullEquality rule).field? valueKey = some .null := by
    rw [nullEquality, Entries.field?_remove_of_ne (by decide), Entries.field?_insert]
  have hd : (nullEquality rule).field? datatypeKey = none := Entries.field?_remove datatypeKey _
  rw [elaborate_eq_ok_iff (operator?_of_field? ho rfl), elaborate_eq_ok_iff ho',
    field?_nullEquality (by decide) (by decide) (by decide) rule]
  exact exists_congr fun field => and_congr_right fun _ => elaborateOperator_equal_null hd hv field

theorem elaborate_singleMembership (ho : rule.field? operatorKey = some (.text "=="))
    (hv : rule.field? valueKey = some value) (hi : value.items? = none) :
    elaborate hints (singleMembership rule value) = .ok p ↔ elaborate hints rule = .ok p := by
  have ho' : operator? (singleMembership rule value) = some .isIn := by
    rw [operator?, singleMembership, Entries.field?_insert_of_ne (by decide)]
    exact operator?_withOperator rule rfl
  have hv' : (singleMembership rule value).field? valueKey = some (.list [value]) := Entries.field?_insert valueKey _ _
  have hd : (singleMembership rule value).field? datatypeKey = rule.field? datatypeKey :=
    field?_singleMembership (by decide) (by decide) rule value
  rw [elaborate_eq_ok_iff (operator?_of_field? ho rfl), elaborate_eq_ok_iff ho',
    field?_singleMembership (by decide) (by decide) rule value]
  simp only [elaborateOperator_isIn_singleton hd hv hv' hi]

/-- A rule and what it is rewritten to stand for the same predicate as parts of a group, if for any. -/
theorem Desugars.elaboratePart_eq_ok_iff {entries : Entries} (h : Desugars rule entries)
    (hr : Group.isGroup rule = false) (hints : Hints) : Group.elaboratePart hints (.dict entries) = .ok p ↔
      Group.elaboratePart hints (.dict rule) = .ok p := by
  rw [Group.elaboratePart_rule hr]
  cases h with
  | @negated negative positive _ ho hn hg =>
    have hr' := (Group.isGroup_congr (field?_withOperator (by decide) rule positive)).trans hr
    rw [Group.elaboratePart_group hg.isGroup, hg.elaborate_negates p, Group.elaboratePart_rule hr',
      elaborate_withOperator_negates hints ho hn p]
  | isNull ho =>
    have hr' := (Group.isGroup_congr (field?_nullEquality (by decide) (by decide) (by decide) rule)).trans hr
    rw [Group.elaboratePart_rule hr', elaborate_nullEquality ho]
  | @equal value ho hv hi =>
    have hr' := (Group.isGroup_congr (field?_singleMembership (by decide) (by decide) rule value)).trans hr
    rw [Group.elaboratePart_rule hr', elaborate_singleMembership ho hv hi]

end Rule

namespace Group

variable {hints : Hints} {group group' : Entries} {p : Predicate}

/-- One rewrite in a group: of the group itself, of a rule in it, or in a group in it. -/
inductive Rewrites : Entries → Entries → Prop
  | negation {group group' conjunction : Entries} {items : List Value} (hg : Joins group .negation items)
      (hl : 2 ≤ items.length) (hc : Joins conjunction .all items)
      (hg' : Joins group' .negation [.dict conjunction]) : Rewrites group group'
  | rule {group r entries : Entries} {before after : List Value}
      (hg : group.field? rulesKey = some (.list (before ++ .dict r :: after))) (hr : isGroup r = false)
      (h : Rule.Desugars r entries) :
      Rewrites group (group.insert (.text rulesKey) (.list (before ++ .dict entries :: after)))
  | group {group inner inner' : Entries} {before after : List Value}
      (hg : group.field? rulesKey = some (.list (before ++ .dict inner :: after))) (h : Rewrites inner inner') :
      Rewrites group (group.insert (.text rulesKey) (.list (before ++ .dict inner' :: after)))

theorem Rewrites.isGroup (h : Rewrites group group') : isGroup group = true ∧ isGroup group' = true := by
  cases h with
  | negation hg _ _ hg' => exact ⟨hg.isGroup, hg'.isGroup⟩
  | rule hg _ _ | group hg _ =>
    refine ⟨?_, isGroup_insert _ _⟩
    rw [Group.isGroup, hg]
    rfl

theorem join_negation {items : List Value} {parts : List Predicate} (hl : 2 ≤ items.length)
    (h : items.mapM (elaboratePart hints) = .ok parts) :
    GroupOperator.negation.join parts = .ok (.not (.all parts)) := by
  match items with
  | [] | [_] => contradiction
  | v :: w :: rest =>
    simp only [List.mapM_cons, bind_eq_ok, pure_eq_ok] at h
    obtain ⟨_, _, _, ⟨_, _, _, _, rfl⟩, rfl⟩ := h
    rfl

/-- A negation of several parts is one of their conjunction. -/
theorem elaborate_negation_all {conjunction : Entries} {items : List Value} (hg : Joins group .negation items)
    (hl : 2 ≤ items.length) (hc : Joins conjunction .all items) (hg' : Joins group' .negation [.dict conjunction]) :
    elaborate hints group' = .ok p ↔ elaborate hints group = .ok p := by
  rw [hg'.elaborate_negates p, elaboratePart_group hc.isGroup]
  simp only [hg.elaborate_eq_ok_iff, hc.elaborate_eq_ok_iff]
  constructor
  · rintro ⟨_, ⟨parts, hp, h⟩, rfl⟩
    cases h
    exact ⟨parts, hp, join_negation hl hp⟩
  · rintro ⟨parts, hp, h⟩
    exact ⟨.all parts, ⟨parts, hp, rfl⟩, Except.ok.inj ((join_negation hl hp).symm.trans h)⟩

theorem Rewrites.elaborate_eq_ok_iff (h : Rewrites group group') :
    elaborate hints group' = .ok p ↔ elaborate hints group = .ok p := by
  induction h generalizing p with
  | negation hg hl hc hg' => exact elaborate_negation_all hg hl hc hg'
  | rule hg hr h => exact elaborate_replace hg fun q => h.elaboratePart_eq_ok_iff hr hints
  | group hg h ih =>
    obtain ⟨hi, hi'⟩ := h.isGroup
    refine elaborate_replace hg fun q => ?_
    rw [elaboratePart_group hi, elaboratePart_group hi']
    exact ih

/-- However often a description is rewritten, it stands for the same predicate, if for any. -/
theorem elaborate_of_rewrites (h : Relation.ReflTransGen Rewrites group group') :
    elaborate hints group' = .ok p ↔ elaborate hints group = .ok p := by
  induction h with
  | refl => exact Iff.rfl
  | tail _ hs ih => exact hs.elaborate_eq_ok_iff.trans ih

end Group

namespace Filter

/-- A description compiles if what it is rewritten to does, and to the same token. -/
theorem compile_rewritten {group group' : Entries} (h : Relation.ReflTransGen Group.Rewrites group group')
    (hints : Hints) (t : Text) :
    (compile hints (.dict group')).1 = .ok t ↔ (compile hints (.dict group)).1 = .ok t := by
  have hc (group : Entries) : (compile hints (.dict group)).1 = .ok t ↔
      ∃ p, Group.elaborate hints group = .ok p ∧ p.token = t := by
    change (Group.elaborate hints group).map Predicate.token = .ok t ↔ _
    cases Group.elaborate hints group <;> simp [Except.map]
  rw [hc, hc]
  simp only [Group.elaborate_of_rewrites h]

/-- A negation of an inequality and a null test becomes one of a conjunction, of a negation and an equality. -/
theorem compile_rewritten_negation :
    let group : Entries := [(.text "op", .text "NOT"), (.text "rules", .list [
      .dict [(.text "field_name", .text "a"), (.text "operator", .text "!="), (.text "value", .text "x")],
      .dict [(.text "field_name", .text "b"), (.text "operator", .text "is null"), (.text "dtype", .text "?")]])]
    let group' : Entries := [(.text "op", .text "NOT"), (.text "rules", .list [
      .dict [(.text "op", .text "AND"), (.text "rules", .list [
        .dict [(.text "op", .text "NOT"), (.text "rules", .list [
          .dict [(.text "field_name", .text "a"), (.text "operator", .text "=="), (.text "value", .text "x")]])],
        .dict [(.text "field_name", .text "b"), (.text "operator", .text "=="), (.text "value", .null)]])]])]
    Relation.ReflTransGen Group.Rewrites group group' ∧
      (compile [] (.dict group)).1 = .ok "not(and(not(eq(a,$x)),eq(b,null)))" ∧
      (compile [] (.dict group')).1 = .ok "not(and(not(eq(a,$x)),eq(b,null)))" := by
  intro group group'
  let other : Entries := [(.text "op", .text "NOT"), (.text "rules", .list [
    .dict [(.text "field_name", .text "a"), (.text "operator", .text "=="), (.text "value", .text "x")]])]
  let absent : Entries :=
    [(.text "field_name", .text "b"), (.text "operator", .text "is null"), (.text "dtype", .text "?")]
  let between : Entries := [(.text "op", .text "NOT"), (.text "rules", .list [.dict other, .dict absent])]
  have h₁ : Group.Rewrites group between :=
    @Group.Rewrites.rule group _ other [] [.dict absent] rfl rfl (.negated rfl .notEqual ⟨rfl, rfl⟩)
  have h₂ := @Group.Rewrites.rule between absent _ [.dict other] [] rfl rfl (.isNull rfl)
  have h : Relation.ReflTransGen Group.Rewrites group group' :=
    ((Relation.ReflTransGen.single h₁).tail h₂).tail
      (.negation ⟨rfl, rfl⟩ (Nat.le_refl 2) ⟨rfl, rfl⟩ ⟨rfl, rfl⟩)
  have hg : (compile [] (.dict group)).1 = .ok "not(and(not(eq(a,$x)),eq(b,null)))" := by
    with_unfolding_all rfl
  exact ⟨h, hg, (compile_rewritten h [] _).mpr hg⟩

end Filter

end FilterQuery
