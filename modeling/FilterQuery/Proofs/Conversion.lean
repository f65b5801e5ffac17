import FilterQuery.Proofs.Printable

namespace FilterQuery

namespace Rule

variable {hints : Hints} {r : Entries} {field value : Value} {operator : Operator}

/-- The values that an operator has converted, one after the other. Full-text search converts none. -/
def converted (operator : Operator) (value : Value) : List Value :=
  match operator.takesList, value.items? with
  | true, some items => items
  | false, none => if operator = .fullText then [] else [value]
  | _, _ => []

/-- The literals of a rule's value, before its field is looked at. -/
def convert (operator : Operator) (value : Value) (d : Datatype) : Except Failure (List Literal) :=
  match operator.takesList, value.items? with
  | true, none => faulty (.listRequired operator)
  | false, some _ => faulty (.listRefused operator)
  | _, _ =>
    if operator = .fullText ∧ ¬ (d = .string ∧ value.text?.isSome) then faulty .notFullText
    else (converted operator value).mapM d.literal

/-- Values of the kind that the operator takes are converted one after the other. -/
theorem convert_eq_mapM (hf : operator ≠ .fullText) (h : operator.takesList = value.items?.isSome) (d : Datatype) :
    convert operator value d = (converted operator value).mapM d.literal := by
  rw [convert, if_neg fun hc => hf hc.1, h]
  cases value.items? <;> rfl

theorem converted_items (ho : operator.takesList = true) {items : List Value} (hi : value.items? = some items) :
    converted operator value = items := by
  rw [converted, ho, hi]

theorem converted_single (ho : operator.takesList = false) (hf : operator ≠ .fullText) (hi : value.items? = none) :
    converted operator value = [value] := by
  rw [converted, ho, hi]
  exact if_neg hf

theorem elaborateMembership_eq (ho : operator.takesList = true) (negated : Bool) (field value : Value)
    (d : Datatype) : elaborateMembership operator negated field value d = do
      let literals ← convert operator value d
      let name ← field.asText
      return signed negated (.compare (.equal name literals)) := by
  have hf : operator ≠ .fullText := by
    rintro rfl
    contradiction
  rw [elaborateMembership]
  cases hi : value.items? with
  | none =>
    rw [convert, ho, hi]
    rfl
  | some items =>
    rw [convert_eq_mapM hf (by rw [ho, hi]; rfl), converted_items ho hi]
    dsimp only
    cases items.mapM d.literal with
    | error failure => rfl
    | ok literals => cases field <;> rfl

theorem elaborateSingle_eq (operator : Operator) (ho : operator.takesList = false) (hf : operator ≠ .fullText)
    (build : Value → Literal → Except Failure Predicate) (predicate : Text → List Literal → Predicate)
    (hb : ∀ field l, build field l = do return predicate (← field.asText) [l]) (value : Value)
    (d : Datatype) (field : Value) : elaborateSingle operator value d (build field) = do
      let literals ← convert operator value d
      let name ← field.asText
      return predicate name literals := by
  rw [elaborateSingle]
  cases hi : value.items? with
  | some items =>
    rw [convert, ho, hi]
    rfl
  | none =>
    rw [convert_eq_mapM hf (by rw [ho, hi]; rfl), converted_single ho hf hi, List.mapM_cons, List.mapM_nil]
    dsimp only
    cases d.literal value with
    | error failure => rfl
    | ok l => exact hb field l

theorem elaborateFullText_eq (value : Value) (d : Datatype) (field : Value) :
    elaborateValue .fullText field value d = do
      let _ ← convert .fullText value d
      let name ← field.asText
      return .compare (.fullText name (value.text?.getD [])) := by
  have ho : Operator.takesList .fullText = false := rfl
  rw [elaborateValue, convert, ho]
  cases hi : value.items? with
  | some items => rfl
  | none =>
    simp only [Option.isSome_none, Bool.false_eq_true, ↓reduceIte, true_and, converted, ho, hi]
    unfold elaborateFullText
    split
    · rfl
    · rename_i hne
      rw [if_pos]
      · rfl
      · rintro ⟨rfl, ht⟩
        cases value with
        | text t => exact hne t rfl rfl
        | _ => contradiction

/-- The predicate of an operator, a field and the literals of the value, full-text search left aside. -/
def predicateOf (operator : Operator) (name : Text) (literals : List Literal) : Predicate :=
  match operator with
  | .relate relation => .compare (.relate relation name (literals.headD .null))
  | _ => signed operator.isNegated (.compare (.equal name literals))

/-- But for full-text search the value counts by its literals only. -/
theorem elaborateValue_convert (hn : operator.isNullTest = false) (hf : operator ≠ .fullText) (value : Value)
    (d : Datatype) (field : Value) : elaborateValue operator field value d = do
      let literals ← convert operator value d
      let name ← field.asText
      return predicateOf operator name literals := by
  cases operator with
  | isIn => exact elaborateMembership_eq rfl false field value d
  | notIn => exact elaborateMembership_eq rfl true field value d
  | isNull => contradiction
  | isNotNull => contradiction
  | fullText => contradiction
  | equal =>
    exact elaborateSingle_eq .equal rfl hf (fun field l => equalTo field [l]) _ (fun field l => rfl) value d field
  | notEqual =>
    refine elaborateSingle_eq .notEqual rfl hf (fun field l => do return signed true (← equalTo field [l])) _
      ?_ value d field
    intro field l
    cases field <;> rfl
  | relate relation =>
    exact elaborateSingle_eq (.relate relation) rfl hf (elaborateRelation relation) (predicateOf (.relate relation))
      (fun field l => rfl) value d field

/-- The field is looked at last: once the value is converted, it must be a text. -/
theorem elaborateValue_eq (hn : operator.isNullTest = false) (value : Value) (d : Datatype) :
    ∃ predicate : Text → List Literal → Predicate, ∀ field, elaborateValue operator field value d = do
      let literals ← convert operator value d
      let name ← field.asText
      return predicate name literals := by
  by_cases hf : operator = .fullText
  · subst hf
    exact ⟨fun name _ => .compare (.fullText name (value.text?.getD [])), elaborateFullText_eq value d⟩
  · exact ⟨predicateOf operator, elaborateValue_convert hn hf value d⟩

/-- The datatype of a rule that names one depends on no hint. -/
theorem datatype_of_own {d : Datatype} (h : r.field? datatypeKey = some (.text d.name)) (hints : Hints)
    (field value : Value) : datatype hints r field value = .ok d := by
  have ht : Value.truth (.text d.name) = true := by
    cases d <;> rfl
  have ho : ownDatatype? r = some (.text d.name) := by
    rw [ownDatatype?, h, Option.filter_some, if_pos ht]
  have hd : Datatype.ofValue? (.text d.name) = some d := Datatype.ofName?_name d
  simp only [datatype, ho, hd]

theorem elaborateOperator_eq (hn : operator.isNullTest = false) : elaborateOperator hints r field operator =
    match r.field? valueKey with
    | none => faulty (.valueMissing operator)
    | some value => datatype hints r field value >>= elaborateValue operator field value := by
  cases operator <;> first | rfl | contradiction

/-- A rule whose datatype is told fails as its value does, or asks for the comparison with the literals of the value. -/
theorem elaborate_eq_convert {name : Text} {d : Datatype} (hf : fieldName? r = some name)
    (ho : operator? r = some operator) (hv : r.field? valueKey = some value)
    (hd : datatype hints r (.text name) value = .ok d) (hn : operator.isNullTest = false)
    (ht : operator ≠ .fullText) :
    elaborate hints r = (convert operator value d).map (predicateOf operator name) := by
  obtain ⟨op, hop, ho⟩ := ofValue?_of_operator? ho
  simp only [elaborate, field?_of_fieldName? hf, hop, ho]
  rw [elaborateOperator_eq hn, hv]
  dsimp only
  rw [hd]
  change elaborateValue operator (.text name) value d = _
  rw [elaborateValue_convert hn ht]
  cases convert operator value d <;> rfl

theorem printable_converted (hv : value.isPrintable) : ∀ v ∈ converted operator value, v.isPrintable := by
  intro v hm
  rw [converted] at hm
  split at hm
  · rename_i items _ hi
    cases value with
    | list items' | tuple items' =>
      cases hi
      exact Value.printable_of_mem hv hm
    | _ => contradiction
  · split at hm
    · contradiction
    · rw [List.mem_singleton.mp hm]
      exact hv
  · contradiction

end Rule

end FilterQuery
