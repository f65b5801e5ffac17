import FilterQuery.Filter.Compile
import FilterQuery.Proofs.Conversion
import FilterQuery.Proofs.Faults

namespace FilterQuery

/-- Whether a failure is a filter error. -/
def Failure.isFilter : Failure → Bool
  | filter _ => true
  | _ => false

/-- Something fails, and not with a filter error. -/
def Foreign {α : Type} (x : Except Failure α) (failure : Failure) : Prop :=
  x = .error failure ∧ failure.isFilter = false

/-- Whether something fails otherwise than with a filter error. -/
def isForeign {α : Type} : Except Failure α → Bool
  | .ok _ => false
  | .error failure => !failure.isFilter

namespace Foreign

variable {α β : Type} {failure : Failure}

theorem isForeign_eq_true {x : Except Failure α} : isForeign x = true ↔ ∃ failure, Foreign x failure := by
  cases x with
  | ok a => exact ⟨fun h => Bool.noConfusion h, fun ⟨_, h, _⟩ => nomatch h⟩
  | error other =>
    refine ⟨fun h => ⟨other, rfl, by simpa [isForeign] using h⟩, ?_⟩
    rintro ⟨_, h, hf⟩
    cases h
    simpa [isForeign] using hf

instance (x : Except Failure α) : Decidable (∃ failure, Foreign x failure) :=
  decidable_of_iff _ isForeign_eq_true

theorem ok {a : α} : ¬ Foreign (.ok a) failure := fun h => nomatch h.1

theorem filter {error : FilterError} : ¬ Foreign (.error (.filter error) : Except Failure α) failure :=
  fun h => by
    cases h.1
    exact Bool.noConfusion h.2

theorem faulty {error : FilterError} : ¬ Foreign (Rule.faulty error : Except Failure α) failure := filter

theorem error_iff {other : Failure} (h : other.isFilter = false) :
    Foreign (.error other : Except Failure α) failure ↔ failure = other := by
  constructor
  · rintro ⟨h', -⟩
    exact (Except.error.inj h').symm
  · rintro rfl
    exact ⟨rfl, h⟩

theorem bind_iff {x : Except Failure α} {f : α → Except Failure β} :
    Foreign (x >>= f) failure ↔ Foreign x failure ∨ ∃ a, x = .ok a ∧ Foreign (f a) failure := by
  cases x <;> simp [Foreign, bind, Except.bind]

theorem map_iff {x : Except Failure α} {f : α → β} : Foreign (x.map f) failure ↔ Foreign x failure := by
  cases x <;> simp [Foreign, Except.map]

/-- What is made of a result at once adds no failure. -/
theorem bind_pure_iff {x : Except Failure α} {f : α → β} :
    Foreign (x >>= fun a => pure (f a)) failure ↔ Foreign x failure := by
  rw [bind_iff, or_iff_left]
  rintro ⟨a, -, h⟩
  exact ok h

/-- Of values done one after the other, one has the failure, and those before it have none. -/
theorem mapM_iff {items : List α} {f : α → Except Failure β} :
    Foreign (items.mapM f) failure ↔
      ∃ before a after, items = before ++ a :: after ∧ (∀ b ∈ before, ∃ c, f b = .ok c) ∧
        Foreign (f a) failure := by
  induction items with
  | nil => exact iff_of_false ok fun ⟨before, a, after, hs, _⟩ => by simp at hs
  | cons b items ih =>
    rw [List.mapM_cons, bind_iff]
    constructor
    · rintro (h | ⟨c, hc, h⟩)
      · exact ⟨[], b, items, rfl, fun _ hb => absurd hb List.not_mem_nil, h⟩
      · rw [bind_iff, ih] at h
        obtain ⟨before, a, after, rfl, hb, ha⟩ | ⟨cs, _, h⟩ := h
        · refine ⟨b :: before, a, after, rfl, ?_, ha⟩
          intro b' hb'
          obtain rfl | hb' := List.mem_cons.mp hb'
          · exact ⟨c, hc⟩
          · exact hb b' hb'
        · exact absurd h ok
    · rintro ⟨before, a, after, hs, hb, ha⟩
      cases before with
      | nil =>
        obtain ⟨rfl, rfl⟩ := List.cons.inj hs
        exact .inl ha
      | cons b' before =>
        obtain ⟨rfl, rfl⟩ := List.cons.inj hs
        obtain ⟨c, hc⟩ := hb b List.mem_cons_self
        refine .inr ⟨c, hc, bind_iff.mpr (.inl (ih.mpr ⟨before, a, after, rfl, ?_, ha⟩))⟩
        exact fun b' hb' => hb b' (List.mem_cons_of_mem b hb')

end Foreign

theorem Failure.showing_of_printable {values : List Value} {failure : Failure}
    (h : ∀ v ∈ values, v.isPrintable) : Failure.showing values failure = failure :=
  if_pos (List.all_eq_true.mpr h)

theorem Value.foreign_asText {v : Value} {failure : Failure} :
    Foreign v.asText failure ↔ v.text? = none ∧ failure = .wrongKind := by
  cases v with
  | text t => exact iff_of_false Foreign.ok nofun
  | _ => exact (Foreign.error_iff rfl).trans (and_iff_right rfl).symm

namespace Datatype

variable {v : Value} {failure : Failure}

/-- The datetime that a value names. -/
def instantOf? : Value → Option DateTime
  | .text t => readDateTime? t
  | v => v.dateTime?

/-- A value that names an instant without a civil time in UTC. -/
def IsOutOfRange (v : Value) : Prop := ∃ d, instantOf? v = some d ∧ d.toUtc? = none

theorem numberLiteral_not_foreign {d : Datatype} (hv : v.isPrintable) : ¬ Foreign (d.numberLiteral v) failure := by
  have hs : Failure.showing [v] (.filter (.badNumber v d)) = .filter (.badNumber v d) :=
    Failure.showing_of_printable (by simpa using hv)
  unfold numberLiteral
  split
  · rw [if_pos hv]
    exact Foreign.ok
  · exact Foreign.ok
  · exact Foreign.ok
  · split
    · exact Foreign.ok
    · exact Foreign.filter
  · rw [hs]
    exact Foreign.filter

theorem boolLiteral_not_foreign (hv : v.isPrintable) : ¬ Foreign (boolLiteral v) failure := by
  unfold boolLiteral
  split
  · exact Foreign.ok
  · rw [Value.plain?, if_pos hv]
    intro h
    obtain h | ⟨t, -, h⟩ := Foreign.bind_iff.mp h
    · exact Foreign.ok h
    · split at h
      · exact Foreign.ok h
      · exact Foreign.filter h

theorem foreign_ofDateTime {d : DateTime} :
    Foreign (Literal.ofDateTime d) failure ↔ d.toUtc? = none ∧ failure = .dateOutOfRange := by
  rw [Literal.ofDateTime, Foreign.map_iff, DateTime.toUtc]
  cases d.toUtc? with
  | some civil => exact iff_of_false Foreign.ok nofun
  | none =>
    rw [Foreign.error_iff rfl]
    exact (and_iff_right rfl).symm

theorem foreign_instantLiteral (hv : v.isPrintable) :
    Foreign (instantLiteral v) failure ↔ IsOutOfRange v ∧ failure = .dateOutOfRange := by
  have hd {d : DateTime} (h : instantOf? v = some d) : IsOutOfRange v ↔ d.toUtc? = none := by
    simp [IsOutOfRange, h]
  have hn (h : instantOf? v = none) : ¬ IsOutOfRange v := by simp [IsOutOfRange, h]
  unfold instantLiteral
  split
  · rw [hd rfl, foreign_ofDateTime]
  · rw [hd rfl, foreign_ofDateTime]
  · rename_i t
    cases hr : readDateTime? t with
    | some d => exact foreign_ofDateTime.trans (and_congr_left fun _ => (hd hr).symm)
    | none => exact iff_of_false Foreign.filter fun h => hn hr h.1
  · rename_i hdate hdateTime htext
    have hnone : instantOf? v = none := by
      cases v with
      | date d => exact absurd rfl (hdate d)
      | dateTime d => exact absurd rfl (hdateTime d)
      | text t => exact absurd rfl (htext t)
      | _ => rfl
    rw [Failure.showing_of_printable (by simpa using hv)]
    exact iff_of_false Foreign.filter fun h => hn hnone h.1

theorem foreign_literal {d : Datatype} (hv : v.isPrintable) :
    Foreign (d.literal v) failure ↔ d = datetime ∧ IsOutOfRange v ∧ failure = .dateOutOfRange := by
  -- Null is set aside: it becomes a literal before the datatype is looked at.
  by_cases hnull : v = .null
  · subst hnull
    refine iff_of_false Foreign.ok ?_
    rintro ⟨-, ⟨d, hd, -⟩, -⟩
    contradiction
  cases d with
  | int => simp [literal, numberLiteral_not_foreign hv]
  | float => simp [literal, numberLiteral_not_foreign hv]
  | boolean => simp [literal, boolLiteral_not_foreign hv]
  | datetime => simp [literal, foreign_instantLiteral hv]
  | string => simp [literal, Foreign.map_iff, Value.plain?, hv, Foreign.ok]

end Datatype

namespace Rule

variable {hints : Hints} {r : Entries} {field value : Value} {operator : Operator} {failure : Failure}

theorem foreign_convert {d : Datatype} :
    Foreign (convert operator value d) failure ↔ Foreign ((converted operator value).mapM d.literal) failure := by
  have hnone (h : converted operator value = []) :
      ¬ Foreign ((converted operator value).mapM d.literal) failure := by
    rw [h]
    exact Foreign.ok
  rw [convert]
  split
  · rename_i ho hi
    exact iff_of_false Foreign.faulty (hnone (by simp only [converted, ho, hi]))
  · rename_i ho hi
    exact iff_of_false Foreign.faulty (hnone (by simp only [converted, ho, hi]))
  · split
    · rename_i hf
      have hc : converted operator value = [] := by
        rw [hf.1, converted]
        cases value.items? <;> rfl
      exact iff_of_false Foreign.faulty (hnone hc)
    · rfl

theorem foreign_datatype (hr : Value.areEntriesPrintable r) (hf : field.isPrintable) :
    Foreign (datatype hints r field value) failure ↔
      ownDatatype? r = none ∧ field.isKey = false ∧ failure = .wrongKind := by
  rw [datatype]
  cases ho : ownDatatype? r with
  | some own =>
    have hown : own.isPrintable := Entries.printable_field? hr (Option.filter_eq_some_iff.mp ho).1
    refine ⟨fun h => ?_, fun h => absurd h.1 (Option.some_ne_none own)⟩
    dsimp only at h
    cases hd : Datatype.ofValue? own with
    | some d =>
      rw [hd] at h
      exact absurd h Foreign.ok
    | none =>
      rw [hd, Failure.showing_of_printable (by simp [hown, hf])] at h
      exact absurd h Foreign.filter
  | none =>
    dsimp only
    rw [Foreign.bind_iff, Hints.lookUp]
    cases field.isKey with
    | true => simp [Foreign.ok, pure, Except.pure]
    | false =>
      rw [if_neg Bool.false_ne_true, Foreign.error_iff rfl]
      simp

/-- The faults of a rule that no filter error tells of: a field of a wrong kind, where all that is looked at
before it is right, and a value out of range. -/
inductive ForeignFault (hints : Hints) (r : Entries) : Failure → Prop
  /-- The field of a null test is no text. -/
  | nullTest {field : Value} {operator : Operator} (hf : r.field? fieldKey = some field)
      (ho : operator? r = some operator) (hn : operator.isNullTest = true) (ht : field.text? = none) :
      ForeignFault hints r .wrongKind
  /-- The field is no key, and the rule has no datatype of its own, so that a hint is looked for. -/
  | noKey {field value : Value} {operator : Operator} (hf : r.field? fieldKey = some field)
      (ho : operator? r = some operator) (hn : operator.isNullTest = false)
      (hv : r.field? valueKey = some value) (hd : ownDatatype? r = none) (hk : field.isKey = false) :
      ForeignFault hints r .wrongKind
  /-- The field is no text, and the value can be converted. -/
  | noText {field value : Value} {operator : Operator} {d : Datatype} {literals : List Literal}
      (hf : r.field? fieldKey = some field) (ho : operator? r = some operator)
      (hn : operator.isNullTest = false) (hv : r.field? valueKey = some value)
      (hd : datatype hints r field value = .ok d) (hc : convert operator value d = .ok literals)
      (ht : field.text? = none) : ForeignFault hints r .wrongKind
  /-- The value, or one of its items after some that can be converted, is out of range. -/
  | outOfRange {field value v : Value} {operator : Operator} {before after : List Value}
      (hf : r.field? fieldKey = some field) (ho : operator? r = some operator)
      (hn : operator.isNullTest = false) (hv : r.field? valueKey = some value)
      (hd : datatype hints r field value = .ok .datetime)
      (hc : converted operator value = before ++ v :: after)
      (hb : ∀ w ∈ before, ∃ l, Datatype.datetime.literal w = .ok l) (h : Datatype.IsOutOfRange v) :
      ForeignFault hints r .dateOutOfRange

theorem foreign_elaborateValue {d : Datatype} (hn : operator.isNullTest = false) (hv : value.isPrintable) :
    Foreign (elaborateValue operator field value d) failure ↔
      (d = .datetime ∧ failure = .dateOutOfRange ∧ ∃ before v after,
        converted operator value = before ++ v :: after ∧
        (∀ w ∈ before, ∃ l, Datatype.datetime.literal w = .ok l) ∧ Datatype.IsOutOfRange v) ∨
      (failure = .wrongKind ∧ field.text? = none ∧ ∃ literals, convert operator value d = .ok literals) := by
  obtain ⟨predicate, he⟩ := elaborateValue_eq hn value d
  have hfield (literals : List Literal) :
      Foreign (do let name ← field.asText; return predicate name literals) failure ↔
        field.text? = none ∧ failure = .wrongKind := by
    rw [Foreign.bind_pure_iff, Value.foreign_asText]
  rw [he, Foreign.bind_iff, foreign_convert, Foreign.mapM_iff]
  refine or_congr ?_ ?_
  · constructor
    · rintro ⟨before, v, after, hc, hb, h⟩
      have hp : v.isPrintable := printable_converted hv v (by rw [hc]; exact List.mem_append_cons_self)
      obtain ⟨rfl, ho, rfl⟩ := (Datatype.foreign_literal hp).mp h
      exact ⟨rfl, rfl, before, v, after, hc, hb, ho⟩
    · rintro ⟨rfl, rfl, before, v, after, hc, hb, ho⟩
      have hp : v.isPrintable := printable_converted hv v (by rw [hc]; exact List.mem_append_cons_self)
      exact ⟨before, v, after, hc, hb, (Datatype.foreign_literal hp).mpr ⟨rfl, ho, rfl⟩⟩
  · constructor
    · rintro ⟨literals, hc, h⟩
      obtain ⟨ht, rfl⟩ := (hfield literals).mp h
      exact ⟨rfl, ht, literals, hc⟩
    · rintro ⟨rfl, ht, literals, hc⟩
      exact ⟨literals, hc, (hfield literals).mpr ⟨ht, rfl⟩⟩

theorem foreign_equalTo {literals : List Literal} :
    Foreign (equalTo field literals) failure ↔ field.text? = none ∧ failure = .wrongKind := by
  rw [equalTo, Foreign.bind_pure_iff, Value.foreign_asText]

theorem foreign_nullTest (hn : operator.isNullTest = true) :
    Foreign (elaborateOperator hints r field operator) failure ↔
      field.text? = none ∧ failure = .wrongKind := by
  cases operator with
  | isNull => exact foreign_equalTo
  | isNotNull => rw [elaborateOperator, Foreign.bind_pure_iff, foreign_equalTo]
  | _ => contradiction

theorem foreign_elaborateOperator (hr : Value.areEntriesPrintable r) (hf : r.field? fieldKey = some field)
    (ho : operator? r = some operator) :
    Foreign (elaborateOperator hints r field operator) failure ↔ ForeignFault hints r failure := by
  have hfp : field.isPrintable := Entries.printable_field? hr hf
  constructor
  · intro h
    cases hn : operator.isNullTest with
    | true =>
      obtain ⟨ht, rfl⟩ := (foreign_nullTest hn).mp h
      exact .nullTest hf ho hn ht
    | false =>
      rw [elaborateOperator_eq hn] at h
      cases hv : r.field? valueKey with
      | none =>
        rw [hv] at h
        exact absurd h Foreign.faulty
      | some value =>
        rw [hv] at h
        obtain h | ⟨d, hd, h⟩ := Foreign.bind_iff.mp h
        · obtain ⟨hown, hk, rfl⟩ := (foreign_datatype hr hfp).mp h
          exact .noKey hf ho hn hv hown hk
        · obtain ⟨rfl, rfl, before, v, after, hc, hb, hout⟩ | ⟨rfl, ht, literals, hc⟩ :=
            (foreign_elaborateValue hn (Entries.printable_field? hr hv)).mp h
          · exact .outOfRange hf ho hn hv hd hc hb hout
          · exact .noText hf ho hn hv hd hc ht
  · intro h
    cases h with
    | nullTest hf' ho' hn ht =>
      cases hf.symm.trans hf'
      cases ho.symm.trans ho'
      exact (foreign_nullTest hn).mpr ⟨ht, rfl⟩
    | noKey hf' ho' hn hv hown hk =>
      cases hf.symm.trans hf'
      cases ho.symm.trans ho'
      rw [elaborateOperator_eq hn, hv]
      exact Foreign.bind_iff.mpr (.inl ((foreign_datatype hr hfp).mpr ⟨hown, hk, rfl⟩))
    | noText hf' ho' hn hv hd hc ht =>
      cases hf.symm.trans hf'
      cases ho.symm.trans ho'
      rw [elaborateOperator_eq hn, hv]
      refine Foreign.bind_iff.mpr (.inr ⟨_, hd, ?_⟩)
      exact (foreign_elaborateValue hn (Entries.printable_field? hr hv)).mpr (.inr ⟨rfl, ht, _, hc⟩)
    | outOfRange hf' ho' hn hv hd hc hb hout =>
      cases hf.symm.trans hf'
      cases ho.symm.trans ho'
      rw [elaborateOperator_eq hn, hv]
      refine Foreign.bind_iff.mpr (.inr ⟨_, hd, ?_⟩)
      exact (foreign_elaborateValue hn (Entries.printable_field? hr hv)).mpr
        (.inl ⟨rfl, rfl, _, _, _, hc, hb, hout⟩)

/-- A rule with such a fault has a field, and an operator that is known. -/
theorem ForeignFault.operator?_eq (h : ForeignFault hints r failure) :
    ∃ field operator, r.field? fieldKey = some field ∧ operator? r = some operator := by
  cases h with
  | nullTest hf ho | noKey hf ho | noText hf ho | outOfRange hf ho => exact ⟨_, _, hf, ho⟩

/-- A rule that can be written fails with a foreign failure if it has such a fault, and only then. -/
theorem foreign_elaborate (hr : Value.areEntriesPrintable r) :
    Foreign (elaborate hints r) failure ↔ ForeignFault hints r failure := by
  have hno (h : operator? r = none) : ¬ ForeignFault hints r failure := by
    intro he
    obtain ⟨_, _, -, ho⟩ := he.operator?_eq
    rw [h] at ho
    contradiction
  rw [elaborate]
  split
  · rename_i field op hf hop
    split
    · rename_i operator ho
      exact foreign_elaborateOperator hr hf (by rw [operator?_eq, hop]; exact ho)
    · rename_i ho
      have hp : op.isPrintable := Entries.printable_field? hr hop
      rw [Failure.showing_of_printable (by simpa using hp)]
      exact iff_of_false Foreign.filter (hno (by rw [operator?_eq, hop]; exact ho))
  · rename_i hnone
    refine iff_of_false Foreign.faulty fun h => ?_
    obtain ⟨field, operator, hf, ho⟩ := h.operator?_eq
    obtain ⟨op, hop, -⟩ := ofValue?_of_operator? ho
    exact absurd hop (hnone field op hf)

end Rule

namespace Filter

/-- The faults of a text that no filter error tells of: a whole number of too many digits, if the reader comes
upon it before any other fault, and that of the rule in which the first check fails. -/
inductive TextFault (hints : Hints) (t : Text) : Failure → Prop
  | longNumber {fault : Json.Fault} {digits : Nat} (h : Json.parse t = .error fault)
      (hc : fault.complaint = .longNumber digits) : TextFault hints t (.longNumberRead digits)
  | rule {j : Json} {group r : Entries} {before after : List Check} {failure : Failure}
      (h : Json.parse t = .ok j) (hg : j.toValue = .dict group)
      (hs : Check.ofGroup group = before ++ .rule r :: after)
      (hb : ∀ c ∈ before, c.failure? hints = none) (he : Rule.ForeignFault hints r failure) :
      TextFault hints t failure

theorem header_not_foreign {group : Entries} {failure : Failure} : ¬ Foreign (Group.header group) failure := by
  intro h
  rw [Group.header, Group.operator] at h
  split at h
  · rename_i failure' ho
    split at ho
    · split at ho
      · contradiction
      · cases ho
        exact Foreign.filter h
    · cases ho
      exact Foreign.filter h
  · exact Foreign.ok h
  · exact Foreign.filter h

/-- Only rules have foreign failures; the other checks tell of every fault. -/
theorem foreign_check {hints : Hints} {check : Check} {failure : Failure}
    (h : check.failure? hints = some failure) (hf : failure.isFilter = false) :
    ∃ r, check = .rule r ∧ Foreign (Rule.elaborate hints r) failure := by
  have he {α : Type} {x : Except Failure α} (h : failureOf x = some failure) : Foreign x failure := by
    cases x with
    | ok a => contradiction
    | error other =>
      cases h
      exact ⟨rfl, hf⟩
  cases check with
  | header group => exact absurd (he h) header_not_foreign
  | part v =>
    have h : Foreign (Group.dictionary v) failure := he h
    cases v with
    | dict entries => exact absurd h Foreign.ok
    | _ => exact absurd h Foreign.filter
  | rule r => exact ⟨r, rfl, he h⟩
  | nonempty operator items =>
    have h : Foreign (Group.nonempty operator items) failure := he h
    rw [Group.nonempty] at h
    split at h
    · exact absurd h Foreign.filter
    · exact absurd h Foreign.ok

theorem foreign_group {hints : Hints} {group : Entries} {failure : Failure}
    (hg : Value.areEntriesPrintable group) :
    Foreign (Group.elaborate hints group) failure ↔
      ∃ before r after, Check.ofGroup group = before ++ .rule r :: after ∧
        (∀ c ∈ before, c.failure? hints = none) ∧ Rule.ForeignFault hints r failure := by
  have hp {before after : List Check} {r : Entries}
      (hs : Check.ofGroup group = before ++ .rule r :: after) : Value.areEntriesPrintable r :=
    Check.printable_rule_of_group hg (by rw [hs]; exact List.mem_append_cons_self)
  constructor
  · rintro ⟨h, hf⟩
    -- The check that fails is of a rule, since all the others fail with filter errors.
    obtain ⟨before, check, after, hs, hb, hc⟩ := Check.elaborate_eq_error_iff.mp h
    obtain ⟨r, rfl, he⟩ := foreign_check hc hf
    exact ⟨before, r, after, hs, hb, (Rule.foreign_elaborate (hp hs)).mp he⟩
  · rintro ⟨before, r, after, hs, hb, he⟩
    obtain ⟨h, hf⟩ := (Rule.foreign_elaborate (hp hs)).mpr he
    refine ⟨Check.elaborate_eq_error_iff.mpr ⟨before, .rule r, after, hs, hb, ?_⟩, hf⟩
    rw [Check.failure?, h]
    rfl

theorem ofJsonText_of_parse {t : Text} {j : Json} (h : Json.parse t = .ok j) : ofJsonText t = .ok j.toValue := by
  rw [ofJsonText, h]

theorem ofJsonText_ok {t : Text} {v : Value} (h : ofJsonText t = .ok v) :
    ∃ j, Json.parse t = .ok j ∧ v = j.toValue := by
  rw [ofJsonText] at h
  cases hj : Json.parse t with
  | ok j =>
    rw [hj] at h
    cases h
    exact ⟨j, rfl, rfl⟩
  | error fault =>
    rw [hj] at h
    dsimp only at h
    split at h <;> contradiction

theorem foreign_ofJsonText {t : Text} {failure : Failure} :
    Foreign (ofJsonText t) failure ↔ ∃ fault digits, Json.parse t = .error fault ∧
      fault.complaint = .longNumber digits ∧ failure = .longNumberRead digits := by
  rw [ofJsonText]
  cases hj : Json.parse t with
  | ok j => exact iff_of_false Foreign.ok fun ⟨_, _, h, _⟩ => nomatch h
  | error fault =>
    dsimp only
    split
    · rename_i digits hc
      rw [Foreign.error_iff rfl]
      constructor
      · rintro rfl
        exact ⟨fault, digits, rfl, hc, rfl⟩
      · rintro ⟨_, digits', h, hc', rfl⟩
        cases h
        cases hc.symm.trans hc'
        rfl
    · rename_i hc
      refine iff_of_false Foreign.filter ?_
      rintro ⟨_, digits, h, hc', rfl⟩
      cases h
      exact absurd hc' (hc digits)

theorem compile_text (hints : Hints) (t : Text) : (compile hints (.text t)).1 = ofJsonText t >>= fun v =>
    match v with
    | .dict group => (Group.elaborate hints group).map Predicate.token
    | _ => .error (.filter .notObject) := by
  rw [compile, description]
  cases ofJsonText t with
  | error failure => rfl
  | ok v => cases v <;> rfl

/-- Compiling a text gives a predicate or a filter error, but for the faults described, which it fails with. -/
theorem compile_text_foreign (hints : Hints) (t : Text) (failure : Failure) :
    Foreign (compile hints (.text t)).1 failure ↔ TextFault hints t failure := by
  rw [compile_text, Foreign.bind_iff, foreign_ofJsonText]
  constructor
  · rintro (⟨fault, digits, hj, hc, rfl⟩ | ⟨v, hv, h⟩)
    · exact .longNumber hj hc
    · obtain ⟨j, hj, rfl⟩ := ofJsonText_ok hv
      cases hv : j.toValue with
      | dict group =>
        rw [hv] at h
        -- What was read can be written, so no message fails for a number that it shows.
        have hg : Value.areEntriesPrintable group := by
          have := Json.printable_parse hj
          rwa [hv] at this
        obtain ⟨before, r, after, hs, hb, he⟩ := (foreign_group hg).mp (Foreign.map_iff.mp h)
        exact .rule hj hv hs hb he
      | _ =>
        rw [hv] at h
        exact absurd h Foreign.filter
  · rintro (⟨hj, hc⟩ | ⟨hj, hv, hs, hb, he⟩)
    · exact .inl ⟨_, _, hj, hc, rfl⟩
    · have hg := Json.printable_parse hj
      rw [hv] at hg
      refine .inr ⟨_, ofJsonText_of_parse hj, ?_⟩
      rw [hv]
      exact Foreign.map_iff.mpr ((foreign_group hg).mpr ⟨_, _, _, hs, hb, he⟩)

/-- A field that is no text, and the first midnight of all as it is told an hour east of UTC. -/
theorem compile_text_foreign_fields_and_instants :
    let alone (rule : Text) : Text := "\x7b\"op\":\"AND\",\"rules\":[\x7b" ++ rule ++ "\x7d]\x7d"
    (∃ failure, Foreign (compile [] (.text (alone "\"field_name\":5,\"operator\":\"is null\""))).1 failure) ∧
    ∃ failure, Foreign (compile [] (.text (alone ("\"field_name\":\"d\",\"operator\":\"==\"," ++
      "\"value\":\"0001-01-01T00:00:00+01:00\",\"dtype\":\"datetime\"")))).1 failure := by
  decide +kernel

end Filter

end FilterQuery
