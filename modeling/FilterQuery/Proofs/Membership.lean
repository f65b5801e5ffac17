import FilterQuery.Filter.Compile
import FilterQuery.Proofs.Conversion
import FilterQuery.Proofs.Instant
import FilterQuery.Proofs.LiteralReading
import Mathlib.Data.Fin.VecNotation
import Mathlib.Data.List.OfFn
import Mathlib.Logic.Equiv.Basic

namespace FilterQuery

/-- Tokens tell literals apart. -/
theorem Literal.token_injective : Function.Injective token := by
  intro l m h
  have hl := read?_of_isLiteral (Grammar.isLiteral_token l)
  rw [h, read?_of_isLiteral (Grammar.isLiteral_token m)] at hl
  exact (Option.some.inj hl).symm

/-- What succeeds for each of some values succeeds for their list. -/
theorem mapM_ofFn {α β : Type} {f : α → Except Failure β} {n : Nat} {a : Fin n → α} {b : Fin n → β}
    (h : ∀ i, f (a i) = .ok (b i)) : (List.ofFn a).mapM f = .ok (List.ofFn b) := by
  induction n with
  | zero => rfl
  | succ n ih =>
    rw [List.ofFn_succ, List.ofFn_succ, List.mapM_cons, h 0, ih fun i => h i.succ]
    rfl

theorem exists_of_mapM {α β : Type} {f : α → Except Failure β} {as : List α} {bs : List β}
    (h : as.mapM f = .ok bs) : ∀ a ∈ as, ∃ b, f a = .ok b := by
  induction as generalizing bs with
  | nil => exact List.forall_mem_nil _
  | cons a as ih =>
    rw [List.mapM_cons] at h
    obtain ⟨b, hb, h⟩ := bind_eq_ok.mp h
    obtain ⟨bs, hbs, _⟩ := bind_eq_ok.mp h
    exact List.forall_mem_cons.mpr ⟨⟨b, hb⟩, ih hbs⟩

/-- A list begins with null. -/
def Value.NullFirst (items : List Value) : Prop := items.head? = some .null

namespace Datatype

/-- Nulls, and values that suggest the datatype and name no instant out of range. -/
def Covers (d : Datatype) (v : Value) : Prop :=
  v = .null ∨ ofSample v = d ∧ ∀ instant, v.dateTime? = some instant → instant.InRange

variable {d : Datatype} {v : Value} {n : Nat} {values : Fin n → Value} {σ : Equiv.Perm (Fin n)}

theorem infer_of_nullFirst {items : List Value} (h : Value.NullFirst items) : infer (.list items) = string := by
  cases items with
  | nil => contradiction
  | cons w rest =>
    cases h
    rfl

theorem infer_of_covers (hd : ∀ i, d.Covers (values i)) (i : Fin n) (h : ¬Value.NullFirst (List.ofFn values)) :
    infer (.list (List.ofFn values)) = d := by
  cases n with
  | zero => exact i.elim0
  | succ n =>
    rw [List.ofFn_succ] at h ⊢
    rcases hd 0 with h0 | ⟨h0, _⟩
    · exact absurd (congrArg some h0) h
    · exact h0

theorem infer_eq_or (hd : ∀ i, d.Covers (values i)) (i : Fin n) :
    infer (.list (List.ofFn values)) = d ∨ infer (.list (List.ofFn values)) = string := by
  by_cases h : Value.NullFirst (List.ofFn values)
  · exact .inr (infer_of_nullFirst h)
  · exact .inl (infer_of_covers hd i h)

/-- Two arrangements of values have one datatype, unless one begins with null and the other does not. -/
theorem infer_rearranged (hd : ∀ i, d.Covers (values i)) (i : Fin n)
    (h : Value.NullFirst (List.ofFn (values ∘ σ)) ↔ Value.NullFirst (List.ofFn values)) :
    infer (.list (List.ofFn (values ∘ σ))) = infer (.list (List.ofFn values)) := by
  have hd' (i : Fin n) : d.Covers ((values ∘ σ) i) := hd (σ i)
  by_cases hn : Value.NullFirst (List.ofFn values)
  · rw [infer_of_nullFirst hn, infer_of_nullFirst (h.mpr hn)]
  · rw [infer_of_covers hd i hn, infer_of_covers hd' i (mt h.mp hn)]

/-- If one of them does begin with null and the other does not, strings are the datatype of that one alone. -/
theorem infer_separated (hd : ∀ i, d.Covers (values i)) (i : Fin n)
    (h : ¬(Value.NullFirst (List.ofFn (values ∘ σ)) ↔ Value.NullFirst (List.ofFn values))) :
    infer (.list (List.ofFn (values ∘ σ))) = string ∧ infer (.list (List.ofFn values)) = d ∨
      infer (.list (List.ofFn (values ∘ σ))) = d ∧ infer (.list (List.ofFn values)) = string := by
  have hd' (i : Fin n) : d.Covers ((values ∘ σ) i) := hd (σ i)
  by_cases hn : Value.NullFirst (List.ofFn values)
  · have hn' : ¬Value.NullFirst (List.ofFn (values ∘ σ)) := fun hn' => h (iff_of_true hn' hn)
    exact .inr ⟨infer_of_covers hd' i hn', infer_of_nullFirst hn⟩
  · have hn' : Value.NullFirst (List.ofFn (values ∘ σ)) := by
      by_contra hn'
      exact h (iff_of_false hn' hn)
    exact .inl ⟨infer_of_nullFirst hn', infer_of_covers hd i hn⟩

theorem exists_literal_string : (∃ l, string.literal v = .ok l) ↔ v.isPrintable := by
  have hp : (∃ l, (v.plain?.map Literal.text) = .ok l) ↔ v.isPrintable := by
    rw [Value.plain?]
    split
    · rename_i h
      exact iff_of_true ⟨_, rfl⟩ h
    · rename_i h
      exact iff_of_false (fun ⟨_, h⟩ => nomatch h) h
  cases v with
  | null => exact iff_of_true ⟨_, rfl⟩ rfl
  | _ => exact hp

theorem exists_literal_instant {instant : DateTime} (h : instant.InRange) :
    ∃ l, Literal.ofDateTime instant = .ok l := by
  obtain ⟨c, hc⟩ := DateTime.exists_toUtc_iff.mpr h
  rw [Literal.ofDateTime, hc]
  exact ⟨_, rfl⟩

theorem ofDateTime_ne_text (instant : DateTime) (t : Text) : Literal.ofDateTime instant ≠ .ok (.text t) := by
  intro h
  obtain ⟨c, _, hc⟩ := Json.map_eq_ok h
  cases hc

/-- Under the datatype that a value suggests it has a literal if it can be written. -/
theorem exists_literal_iff (h : d.Covers v) : (∃ l, d.literal v = .ok l) ↔ v.isPrintable := by
  rcases h with rfl | ⟨rfl, hi⟩
  · exact iff_of_true ⟨_, rfl⟩ rfl
  · cases v with
    | null => exact iff_of_true ⟨_, rfl⟩ rfl
    | bool b => exact iff_of_true ⟨_, rfl⟩ rfl
    | float x => exact iff_of_true ⟨_, rfl⟩ rfl
    | date t => exact iff_of_true (exists_literal_instant (hi _ rfl)) rfl
    | dateTime t => exact iff_of_true (exists_literal_instant (hi _ rfl)) rfl
    | int n =>
      change (∃ l, numberLiteral int (.int n) = .ok l) ↔ _
      rw [numberLiteral]
      split
      · rename_i h
        exact iff_of_true ⟨_, rfl⟩ h
      · rename_i h
        exact iff_of_false (fun ⟨_, h⟩ => nomatch h) h
    | text | list | tuple | dict | order => exact exists_literal_string

/-- Under the datatype of their list values have literals if they can be written. -/
theorem exists_literal_infer (hd : ∀ i, d.Covers (values i)) (i : Fin n) :
    (∃ l, (infer (.list (List.ofFn values))).literal (values i) = .ok l) ↔ (values i).isPrintable := by
  rcases infer_eq_or hd i with h | h
  · rw [h]
    exact exists_literal_iff (hd i)
  · rw [h]
    exact exists_literal_string

/-- A value that is no string has another literal under its own datatype than under that of strings. -/
theorem literal_ne_string (hd : d ≠ string) (h : d.Covers v) (hv : v ≠ .null) {l m : Literal}
    (hl : d.literal v = .ok l) (hm : string.literal v = .ok m) : l ≠ m := by
  obtain ⟨rfl, _⟩ := h.resolve_left hv
  have hm : ∃ t, m = .text t := by
    have hp : v.plain?.map .text = .ok m := by
      cases v <;> first | exact hm | contradiction
    obtain ⟨t, _, rfl⟩ := Json.map_eq_ok hp
    exact ⟨t, rfl⟩
  have hl : ∀ t, l ≠ .text t := by
    rintro t rfl
    cases v with
    | null => contradiction
    | bool b => cases hl
    | float x => cases hl
    | int n =>
      change numberLiteral int (.int n) = _ at hl
      rw [numberLiteral] at hl
      split at hl <;> cases hl
    | date d => exact ofDateTime_ne_text (.ofDate d) _ hl
    | dateTime d => exact ofDateTime_ne_text d _ hl
    | text | list | tuple | dict | order => exact hd rfl
  obtain ⟨t, rfl⟩ := hm
  exact hl t

variable {literals literals' : Fin n → Literal}

theorem literals_rearranged (hd : ∀ i, d.Covers (values i))
    (hl : ∀ i, (infer (.list (List.ofFn values))).literal (values i) = .ok (literals i))
    (hl' : ∀ i, (infer (.list (List.ofFn (values ∘ σ)))).literal (values (σ i)) = .ok (literals' i))
    (h : d = string ∨ (∀ i, values i = .null) ∨
      (Value.NullFirst (List.ofFn (values ∘ σ)) ↔ Value.NullFirst (List.ofFn values))) (i : Fin n) :
    literals' i = literals (σ i) := by
  have hd' (i : Fin n) : d.Covers ((values ∘ σ) i) := hd (σ i)
  have he : (infer (.list (List.ofFn (values ∘ σ)))).literal (values (σ i)) =
      (infer (.list (List.ofFn values))).literal (values (σ i)) := by
    rcases h with rfl | hnull | hn
    · rw [or_self_iff.mp (infer_eq_or hd i), or_self_iff.mp (infer_eq_or hd' i)]
    · rw [hnull]
      rfl
    · rw [infer_rearranged hd i hn]
  exact Except.ok.inj ((hl' i).symm.trans (he.trans (hl (σ i))))

/-- A value that is no string and not null changes its literal when null moves to the front or away from it. -/
theorem literals_separated (hs : d ≠ string) (hd : ∀ i, d.Covers (values i))
    (hl : ∀ i, (infer (.list (List.ofFn values))).literal (values i) = .ok (literals i))
    (hl' : ∀ i, (infer (.list (List.ofFn (values ∘ σ)))).literal (values (σ i)) = .ok (literals' i))
    (hn : ¬(Value.NullFirst (List.ofFn (values ∘ σ)) ↔ Value.NullFirst (List.ofFn values))) {i : Fin n}
    (hv : values (σ i) ≠ .null) : literals' i ≠ literals (σ i) := by
  have hi := hl (σ i)
  have hi' := hl' i
  rcases infer_separated hd i hn with ⟨he', he⟩ | ⟨he', he⟩
  · rw [he] at hi
    rw [he'] at hi'
    exact (literal_ne_string hs (hd (σ i)) hv hi hi').symm
  · rw [he] at hi
    rw [he'] at hi'
    exact literal_ne_string hs (hd (σ i)) hv hi' hi

end Datatype

namespace Rule

/-- A rule that asks whether its field is among some values, with no datatype but theirs. -/
structure Membership (hints : Hints) (rule : Entries) (operator : Operator) (field : Text) (items : List Value) :
    Prop where
  named : fieldName? rule = some field
  compared : operator? rule = some operator
  takesList : operator.takesList = true
  listed : ∃ value, rule.field? valueKey = some value ∧ value.items? = some items
  untyped : ownDatatype? rule = none
  unhinted : hints.get? (.text field) = none

/-- The token of a membership rule with given literals. -/
def membershipToken (operator : Operator) (field : Text) (literals : List Literal) : Text :=
  (signed operator.isNegated (.compare (.equal field literals))).token

variable {hints : Hints} {rule : Entries} {operator : Operator} {field : Text} {items : List Value}

theorem infer_of_items? {value : Value} (h : value.items? = some items) :
    Datatype.infer value = Datatype.infer (.list items) := by
  cases value with
  | list | tuple =>
    cases h
    rfl
  | _ => contradiction

theorem Membership.datatype (h : Membership hints rule operator field items) {value : Value}
    (hi : value.items? = some items) :
    Rule.datatype hints rule (.text field) value = .ok (Datatype.infer (.list items)) := by
  rw [Rule.datatype, h.untyped, ← infer_of_items? hi]
  have hl : hints.lookUp (.text field) = .ok none := congrArg Except.ok h.unhinted
  simp only [hl]
  rfl

/-- All values become literals under the one datatype that is inferred from their list. -/
theorem Membership.compileRule (h : Membership hints rule operator field items) :
    Filter.compileRule hints (.dict rule) =
      (items.mapM (Datatype.infer (.list items)).literal).map (membershipToken operator field) := by
  obtain ⟨value, hv, hi⟩ := h.listed
  have ht := h.takesList
  have hn : operator.isNullTest = false := by cases operator <;> first | rfl | contradiction
  have hf : operator ≠ .fullText := by
    rintro rfl
    contradiction
  have hp (literals : List Literal) :
      predicateOf operator field literals = signed operator.isNegated (.compare (.equal field literals)) := by
    cases operator <;> first | rfl | contradiction
  change (elaborate hints rule).map Predicate.token = _
  rw [elaborate_eq_convert h.named h.compared hv (h.datatype hi) hn hf, convert_eq_mapM hf (by rw [ht, hi]; rfl),
    converted_items ht hi]
  cases items.mapM (Datatype.infer (.list items)).literal with
  | error failure => rfl
  | ok literals => exact congrArg (fun p => Except.ok (Predicate.token p)) (hp literals)

variable {n : Nat} {values : Fin n → Value} {d : Datatype}

theorem Membership.compileRule_ofFn (h : Membership hints rule operator field (List.ofFn values))
    {literals : Fin n → Literal}
    (hl : ∀ i, (Datatype.infer (.list (List.ofFn values))).literal (values i) = .ok (literals i)) :
    Filter.compileRule hints (.dict rule) = .ok (membershipToken operator field (List.ofFn literals)) := by
  rw [h.compileRule, mapM_ofFn hl]
  rfl

/-- The rule compiles if all of its values can be written, and not otherwise. -/
theorem Membership.exists_compileRule (h : Membership hints rule operator field (List.ofFn values))
    (hd : ∀ i, d.Covers (values i)) :
    (∃ t, Filter.compileRule hints (.dict rule) = .ok t) ↔ ∀ i, (values i).isPrintable := by
  have hl (i : Fin n) := Datatype.exists_literal_infer hd i
  constructor
  · rintro ⟨t, ht⟩ i
    rw [h.compileRule] at ht
    obtain ⟨literals, hls, _⟩ := Json.map_eq_ok ht
    exact (hl i).mp (exists_of_mapM hls _ (List.mem_ofFn.mpr ⟨i, rfl⟩))
  · intro hp
    choose literals hls using fun i => (hl i).mpr (hp i)
    exact ⟨_, h.compileRule_ofFn hls⟩

end Rule

/-- Two rules ask for the same values in different orders. Both compile if all values can be written, and the
literals of one are those of the other in its order: but not if null comes first in one rule and not in the other,
for there the values become strings that are none. -/
theorem Filter.membership_rearranged {hints : Hints} {rule rule' : Entries} {operator : Operator} {field : Text}
    {n : Nat} {values : Fin n → Value} {σ : Equiv.Perm (Fin n)} {d : Datatype}
    (h : Rule.Membership hints rule operator field (List.ofFn values))
    (h' : Rule.Membership hints rule' operator field (List.ofFn (values ∘ σ)))
    (hd : ∀ i, d.Covers (values i)) :
    ((∃ t, compileRule hints (.dict rule) = .ok t) ↔ ∀ i, (values i).isPrintable) ∧
      ((∃ t, compileRule hints (.dict rule') = .ok t) ↔ ∀ i, (values i).isPrintable) ∧
      ((∀ i, (values i).isPrintable) → ∃ literals literals' : Fin n → Literal,
        compileRule hints (.dict rule) = .ok (Rule.membershipToken operator field (List.ofFn literals)) ∧
        compileRule hints (.dict rule') = .ok (Rule.membershipToken operator field (List.ofFn literals')) ∧
        ((∀ i, (literals' i).token = (literals (σ i)).token) ↔ d = .string ∨ (∀ i, values i = .null) ∨
          (Value.NullFirst (List.ofFn (values ∘ σ)) ↔ Value.NullFirst (List.ofFn values)))) := by
  have hd' (i : Fin n) : d.Covers ((values ∘ σ) i) := hd (σ i)
  have hp : (∀ i, ((values ∘ σ) i).isPrintable) ↔ ∀ i, (values i).isPrintable :=
    σ.forall_congr_right (q := fun i => (values i).isPrintable = true)
  refine ⟨h.exists_compileRule hd, (h'.exists_compileRule hd').trans hp, fun hv => ?_⟩
  choose literals hl using fun i => (Datatype.exists_literal_infer hd i).mpr (hv i)
  choose literals' hl' using fun i => (Datatype.exists_literal_infer hd' i).mpr (hp.mpr hv i)
  refine ⟨literals, literals', h.compileRule_ofFn hl, h'.compileRule_ofFn hl', ?_⟩
  simp only [Literal.token_injective.eq_iff]
  constructor
  · -- Otherwise some value is neither a string nor null, and its literal changes.
    intro ht
    by_contra hc
    obtain ⟨hs, hnull, hn⟩ : d ≠ .string ∧ (¬∀ i, values i = .null) ∧ _ := by simpa only [not_or] using hc
    obtain ⟨j, hj⟩ := not_forall.mp hnull
    obtain ⟨i, rfl⟩ := σ.surjective j
    exact Datatype.literals_separated hs hd hl hl' hn hj (ht i)
  · exact Datatype.literals_rearranged hd hl hl'

/-- A rule that asks whether a field is among some values. -/
def Rule.among (field : Text) (items : List Value) : Entries :=
  [(.text fieldKey, .text field), (.text operatorKey, .text "in"), (.text valueKey, .list items)]

theorem Rule.membership_among (field : Text) (items : List Value) :
    Membership [] (among field items) .isIn field items :=
  ⟨rfl, rfl, rfl, ⟨.list items, rfl, rfl⟩, rfl, rfl⟩

/-- A truth value and null, either way round. -/
theorem Filter.membership_rearranged_truth :
    let values : Fin 2 → Value := ![.bool true, .null]
    let σ : Equiv.Perm (Fin 2) := Equiv.swap 0 1
    Rule.Membership [] (Rule.among "b" (List.ofFn values)) .isIn "b" (List.ofFn values) ∧
      Rule.Membership [] (Rule.among "b" (List.ofFn (values ∘ σ))) .isIn "b" (List.ofFn (values ∘ σ)) ∧
      (∀ i, Datatype.boolean.Covers (values i)) ∧ ∃ literals literals' : Fin 2 → Literal,
        compileRule [] (.dict (Rule.among "b" (List.ofFn values))) =
          .ok (Rule.membershipToken .isIn "b" (List.ofFn literals)) ∧
        compileRule [] (.dict (Rule.among "b" (List.ofFn (values ∘ σ)))) =
          .ok (Rule.membershipToken .isIn "b" (List.ofFn literals')) ∧
        ¬∀ i, (literals' i).token = (literals (σ i)).token := by
  intro values σ
  have h := Rule.membership_among "b" (List.ofFn values)
  have h' := Rule.membership_among "b" (List.ofFn (values ∘ σ))
  have hd : ∀ i, Datatype.boolean.Covers (values i) := by
    simp [values, Fin.forall_fin_two, Datatype.Covers, Datatype.ofSample, Value.dateTime?]
  have hp : ∀ i, (values i).isPrintable := by simp [values, Fin.forall_fin_two, Value.isPrintable]
  obtain ⟨literals, literals', hl, hl', ht⟩ := (membership_rearranged h h' hd).2.2 hp
  refine ⟨h, h', hd, literals, literals', hl, hl', fun heq => ?_⟩
  rcases ht.mp heq with hs | hnull | hn
  · contradiction
  · exact nomatch hnull 0
  · exact nomatch hn.mp rfl

/-- A truth value after null is compared as a text. -/
theorem Filter.truth_after_null :
    compileRule [] (.dict (Rule.among "b" [.bool true, .null])) = .ok (Text.ofString "eq(b,true,null)") ∧
      compileRule [] (.dict (Rule.among "b" [.null, .bool true])) = .ok (Text.ofString "eq(b,null,$True)") :=
  ⟨rfl, rfl⟩

end FilterQuery
