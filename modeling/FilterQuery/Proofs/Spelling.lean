import FilterQuery.Filter.Compile
import FilterQuery.Proofs.Conversion
import FilterQuery.Proofs.Entries
import FilterQuery.Proofs.Instant
import FilterQuery.Proofs.IsoReading
import Mathlib.Data.List.Forall2

namespace FilterQuery

/-- A value that names no instant outside the years 1 to 9999 of UTC. -/
def Value.InRange (v : Value) : Prop := ∀ instant, v.dateTime? = some instant → instant.InRange

theorem Value.inRange_of_none {v : Value} (h : v.dateTime? = none) : v.InRange := by
  intro instant hi
  rw [h] at hi
  contradiction

theorem Value.inRange_iff {v : Value} {instant : DateTime} (h : v.dateTime? = some instant) :
    v.InRange ↔ instant.InRange := by
  simp only [InRange, h, Option.some.injEq, forall_eq']

namespace Datatype

/-- A value and its text in the standard notation of a datatype: decimals, the words for truth values in any case and
with blanks around, ISO texts of dates and of datetimes without an offset or with one of whole seconds. -/
inductive Spells : Datatype → Value → Text → Prop
  | int {n : Int} (h : (Value.int n).isPrintable) : Spells int (.int n) (Text.ofInt n)
  | boolean {b : Bool} {before word after : Text} (hb : ∀ c ∈ before, c.isBlank)
      (hw : Text.toAsciiLower word = Literal.boolToken b) (ha : ∀ c ∈ after, c.isBlank) :
      Spells boolean (.bool b) (before ++ word ++ after)
  | date (d : Date) : Spells datetime (.date d) d.toIso
  | dateTime {d : DateTime} (h : ∀ o ∈ d.offset, 1000000 ∣ o.microseconds) :
      Spells datetime (.dateTime d) (d.toIso "T")

/-- No blank has a letter as its small form. -/
theorem not_blank_of_isAsciiLower {c : CodePoint} (h : c.toAsciiLower.isAsciiLower) : c.isBlank = false := by
  have hc : 0x41 ≤ c.val ∧ c.val ≤ 0x7A := by
    rw [CodePoint.toAsciiLower, CodePoint.isAsciiLower] at h
    split at h
    · omega
    · simp only [Bool.and_eq_true, decide_eq_true_eq] at h
      omega
  simp only [CodePoint.isBlank, CodePoint.isWhiteSpace, Bool.or_eq_false_iff, Bool.and_eq_false_iff,
    decide_eq_false_iff_not]
  omega

theorem not_blank_of_word {word : Text} {b : Bool} (h : Text.toAsciiLower word = Literal.boolToken b) :
    ∀ c ∈ word, c.isBlank = false := by
  have hletters : ∀ c ∈ Literal.boolToken b, c.isAsciiLower := by
    cases b <;> decide
  intro c hc
  have hl : c.toAsciiLower ∈ Text.toAsciiLower word := List.mem_map_of_mem hc
  rw [h] at hl
  exact not_blank_of_isAsciiLower (hletters _ hl)

theorem readBool?_spelling {b : Bool} {before word after : Text} (hb : ∀ c ∈ before, c.isBlank)
    (hw : Text.toAsciiLower word = Literal.boolToken b) (ha : ∀ c ∈ after, c.isBlank) :
    readBool? (before ++ word ++ after) = some b := by
  rw [readBool?, Text.trim_between hb (not_blank_of_word hw) ha, hw]
  cases b <;> rfl

variable {d : Datatype} {v : Value} {t : Text}

/-- A text has the literal of the value that it spells, or the failure. -/
theorem Spells.literal_eq (h : d.Spells v t) : d.literal (.text t) = d.literal v := by
  cases h with
  | @int n h =>
    have hr : readNumber? .int (Text.ofInt n) = some (.ofInt n) := by
      rw [readNumber?, if_pos rfl, Number.readInt?_ofInt h]
      rfl
    simp only [literal, numberLiteral, hr, if_pos h]
  | @boolean b before word after hb hw ha =>
    have hp : (Value.text (before ++ word ++ after)).plain? = .ok (before ++ word ++ after) := rfl
    simp only [literal, boolLiteral, hp, bind, Except.bind, readBool?_spelling hb hw ha, pure, Except.pure]
  | date d => simp only [literal, instantLiteral, readDateTime?_date]
  | dateTime h => simp only [literal, instantLiteral, readDateTime?_dateTime h]

theorem Spells.items?_eq (h : d.Spells v t) : v.items? = none := by
  cases h <;> rfl

theorem ofDateTime_cases (instant : DateTime) :
    (∃ l, Literal.ofDateTime instant = .ok l) ∧ instant.InRange ∨
      Literal.ofDateTime instant = .error .dateOutOfRange ∧ ¬instant.InRange := by
  rw [Literal.ofDateTime]
  by_cases h : instant.InRange
  · obtain ⟨c, hc⟩ := DateTime.exists_toUtc_iff.mpr h
    exact .inl ⟨⟨_, by rw [hc]; rfl⟩, h⟩
  · rw [DateTime.toUtc_eq_error_iff.mpr ⟨rfl, h⟩]
    exact .inr ⟨rfl, h⟩

/-- What has a spelling has a literal, unless it is an instant out of range. -/
theorem Spells.literal_cases (h : d.Spells v t) :
    (∃ l, d.literal v = .ok l) ∧ v.InRange ∨ d.literal v = .error .dateOutOfRange ∧ ¬v.InRange := by
  cases h with
  | @int n h =>
    have hl : Datatype.int.literal (.int n) = .ok (.number (.ofInt n)) := if_pos h
    exact .inl ⟨⟨_, hl⟩, Value.inRange_of_none rfl⟩
  | @boolean b =>
    have hl : Datatype.boolean.literal (.bool b) = .ok (.bool b) := rfl
    exact .inl ⟨⟨_, hl⟩, Value.inRange_of_none rfl⟩
  | date d =>
    rw [Value.inRange_iff rfl]
    exact ofDateTime_cases (.ofDate d)
  | @dateTime d =>
    rw [Value.inRange_iff rfl]
    exact ofDateTime_cases d

end Datatype

/-- A traversal each step of which passes or fails in one way passes as a whole, or fails so. -/
theorem mapM_cases {α β : Type} {f : α → Except Failure β} {good : α → Prop} {failure : Failure} {as : List α}
    (h : ∀ a ∈ as, (∃ b, f a = .ok b) ∧ good a ∨ f a = .error failure ∧ ¬good a) :
    (∃ bs, as.mapM f = .ok bs) ∧ (∀ a ∈ as, good a) ∨ as.mapM f = .error failure ∧ ¬∀ a ∈ as, good a := by
  induction as with
  | nil => exact .inl ⟨⟨[], rfl⟩, List.forall_mem_nil _⟩
  | cons a as ih =>
    rw [List.mapM_cons, List.forall_mem_cons]
    rcases h a List.mem_cons_self with ⟨⟨b, hb⟩, ha⟩ | ⟨hf, ha⟩
    · rw [hb]
      rcases ih fun a hm => h a (List.mem_cons_of_mem _ hm) with ⟨⟨bs, hbs⟩, has⟩ | ⟨hf, has⟩
      · rw [hbs]
        exact .inl ⟨⟨b :: bs, rfl⟩, ha, has⟩
      · rw [hf]
        exact .inr ⟨rfl, fun h => has h.2⟩
    · rw [hf]
      exact .inr ⟨rfl, fun h => ha h.1⟩

theorem mapM_congr {α β : Type} {f : α → Except Failure β} {as as' : List α}
    (h : List.Forall₂ (fun a a' => f a' = f a) as as') : as'.mapM f = as.mapM f := by
  induction h with
  | nil => rfl
  | cons ha _ ih => rw [List.mapM_cons, List.mapM_cons, ha, ih]

namespace Rule

/-- A rule with a field, a value and a datatype of its own. -/
structure Typed (rule : Entries) (operator : Operator) (field : Text) (value : Value) (d : Datatype) : Prop where
  named : fieldName? rule = some field
  compared : operator? rule = some operator
  valued : rule.field? valueKey = some value
  typed : rule.field? datatypeKey = some (.text d.name)

/-- The same rule with another value. -/
def withValue (rule : Entries) (value : Value) : Entries := rule.insert (.text valueKey) value

variable {hints : Hints} {rule : Entries} {operator : Operator} {field : Text} {value value' : Value} {d : Datatype}

theorem Typed.withValue (h : Typed rule operator field value d) (value' : Value) :
    Typed (withValue rule value') operator field value' d := by
  have ho {key : Text} (hk : valueKey ≠ key) : (Rule.withValue rule value').field? key = rule.field? key :=
    Entries.field?_insert_of_ne hk value' rule
  refine ⟨?_, ?_, Entries.field?_insert _ _ _, ?_⟩
  · rw [fieldName?, ho (by decide)]
    exact h.named
  · rw [operator?, ho (by decide)]
    exact h.compared
  · rw [ho (by decide)]
    exact h.typed

theorem Typed.compileRule (h : Typed rule operator field value d) (hn : operator.isNullTest = false)
    (hf : operator ≠ .fullText) (hints : Hints) : Filter.compileRule hints (.dict rule) =
      (convert operator value d).map fun literals => (predicateOf operator field literals).token := by
  have hd := datatype_of_own h.typed hints (.text field) value
  change (elaborate hints rule).map Predicate.token = _
  rw [elaborate_eq_convert h.named h.compared h.valued hd hn hf]
  cases convert operator value d <;> rfl

/-- A value is replaced by a text that spells it: the one value of an operator, or items of the list of one. -/
inductive Respelled (d : Datatype) (operator : Operator) : Value → Value → Prop
  | value {v : Value} {t : Text} (ho : operator.takesList = false) (h : d.Spells v t) :
      Respelled d operator v (.text t)
  | list {vs ws : List Value} (ho : operator.takesList = true)
      (h : List.Forall₂ (fun v w => w = v ∨ ∃ t, w = .text t ∧ d.Spells v t) vs ws) :
      Respelled d operator (.list vs) (.list ws)
  | tuple {vs ws : List Value} (ho : operator.takesList = true)
      (h : List.Forall₂ (fun v w => w = v ∨ ∃ t, w = .text t ∧ d.Spells v t) vs ws) :
      Respelled d operator (.tuple vs) (.tuple ws)

theorem Respelled.literal_eq {v w : Value} (h : w = v ∨ ∃ t, w = .text t ∧ d.Spells v t) :
    d.literal w = d.literal v := by
  rcases h with rfl | ⟨t, rfl, h⟩
  · rfl
  · exact h.literal_eq

theorem Respelled.takesList (h : Respelled d operator value value') :
    operator.takesList = value.items?.isSome ∧ operator.takesList = value'.items?.isSome := by
  cases h with
  | value ho h => exact ⟨by rw [ho, h.items?_eq]; rfl, ho⟩
  | list ho h => exact ⟨ho, ho⟩
  | tuple ho h => exact ⟨ho, ho⟩

theorem Respelled.convert_eq (h : Respelled d operator value value') (hf : operator ≠ .fullText) :
    convert operator value' d = convert operator value d := by
  rw [convert_eq_mapM hf h.takesList.1, convert_eq_mapM hf h.takesList.2]
  cases h with
  | value ho h =>
    rw [converted_single ho hf h.items?_eq, converted_single ho hf rfl]
    exact mapM_congr (.cons h.literal_eq .nil)
  | list ho h | tuple ho h =>
    rw [converted_items ho rfl, converted_items ho rfl]
    exact mapM_congr (h.imp fun _ _ => literal_eq)

/-- The literals of a value all items of which are spelled by some texts. -/
theorem Respelled.convert_cases (h : Respelled d operator value value') (hf : operator ≠ .fullText)
    (hs : ∀ v ∈ converted operator value, ∃ t, d.Spells v t) :
    (∃ literals, convert operator value d = .ok literals) ∧ (∀ v ∈ converted operator value, v.InRange) ∨
      convert operator value d = .error .dateOutOfRange ∧ ¬∀ v ∈ converted operator value, v.InRange := by
  rw [convert_eq_mapM hf h.takesList.1]
  refine mapM_cases fun v hv => ?_
  obtain ⟨t, ht⟩ := hs v hv
  exact ht.literal_cases

end Rule

/-- A rule with a datatype of its own compiles alike when values of it are replaced by the texts that spell them. If all
its values have such texts, it compiles, or it fails because one of them is an instant out of range. -/
theorem Filter.compileRule_respelled (hints : Hints) {rule : Entries} {operator : Operator} {field : Text}
    {value value' : Value} {d : Datatype} (hr : Rule.Typed rule operator field value d)
    (hn : operator.isNullTest = false) (hf : operator ≠ .fullText) (h : Rule.Respelled d operator value value') :
    compileRule hints (.dict (Rule.withValue rule value')) = compileRule hints (.dict rule) ∧
      ((∀ v ∈ Rule.converted operator value, ∃ t, d.Spells v t) →
        (∃ token, compileRule hints (.dict rule) = .ok token) ∧
            (∀ v ∈ Rule.converted operator value, v.InRange) ∨
          compileRule hints (.dict rule) = .error .dateOutOfRange ∧
            ¬∀ v ∈ Rule.converted operator value, v.InRange) := by
  rw [hr.compileRule hn hf, (hr.withValue value').compileRule hn hf, h.convert_eq hf]
  refine ⟨rfl, fun hs => ?_⟩
  rcases h.convert_cases hf hs with ⟨⟨literals, hl⟩, hi⟩ | ⟨he, hi⟩
  · rw [hl]
    exact .inl ⟨⟨_, rfl⟩, hi⟩
  · rw [he]
    exact .inr ⟨rfl, hi⟩

/-- A rule with a datatype of its own, written out. -/
def Rule.written (spelling field : Text) (value : Value) (d : Datatype) : Entries :=
  [(.text fieldKey, .text field), (.text operatorKey, .text spelling), (.text valueKey, value),
    (.text datatypeKey, .text d.name)]

theorem Rule.typed_written {spelling : Text} {operator : Operator}
    (h : Operator.vocabulary.lookup spelling = some operator) (field : Text) (value : Value) (d : Datatype) :
    Typed (written spelling field value d) operator field value d :=
  ⟨rfl, operator?_of_field? rfl h, rfl, rfl⟩

/-- A datetime of an odd offset, by its text in a list with a date. -/
theorem Filter.compileRule_respelled_offset :
    let d : DateTime := ⟨⟨⟨2024, 2, 29, by decide⟩, ⟨23, 59, 59, 999999⟩⟩, some ⟨-19815000000, by decide⟩⟩
    d.toIso "T" = Text.ofString "2024-02-29T23:59:59.999999-05:30:15" ∧
      compileRule [] (.dict (Rule.written "in" "at" (.list [.text (d.toIso "T"), .date d.civil.date]) .datetime)) =
        compileRule [] (.dict (Rule.written "in" "at" (.list [.dateTime d, .date d.civil.date]) .datetime)) ∧
      compileRule [] (.dict (Rule.written "in" "at" (.list [.dateTime d, .date d.civil.date]) .datetime)) =
        .ok (Text.ofString "eq(at,2024-03-01T05:30:14.999Z,2024-02-29T00:00:00.000Z)") := by
  intro d
  have ho : ∀ o ∈ d.offset, 1000000 ∣ o.microseconds := by
    intro o h
    cases h
    decide
  have h : Rule.Respelled .datetime .isIn (.list [.dateTime d, .date d.civil.date])
      (.list [.text (d.toIso "T"), .date d.civil.date]) :=
    .list rfl (.cons (.inr ⟨_, rfl, .dateTime ho⟩) (.cons (.inl rfl) .nil))
  have he := (compileRule_respelled [] (@Rule.typed_written "in" _ rfl "at" _ .datetime) rfl nofun h).1
  exact ⟨by decide +kernel, he, toOption_eq_some.mp (by decide +kernel)⟩

end FilterQuery
