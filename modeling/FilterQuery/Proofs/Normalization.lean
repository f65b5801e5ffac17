import FilterQuery.Proofs.FloatReading
import FilterQuery.Proofs.Spelling

namespace FilterQuery

namespace Number

theorem wholeNumber?_printable {t : Text} {n : Int} (h : wholeNumber? t = some n) : (Value.int n).isPrintable := by
  rw [wholeNumber?] at h
  dsimp only at h
  split at h
  · rename_i digits hr
    split at h
    · rename_i hl
      cases h
      have hc : Digits.count digits.toNat ≤ digits.toList.length := Digits.count_valueOf_le (List.cons_ne_nil _ _)
      refine decide_eq_true ?_
      rw [natAbs_signed]
      exact Nat.le_trans hc hl
    · contradiction
  · contradiction

/-- What is read is short enough to be written. -/
theorem readInt?_printable {t : Text} {n : Int} (h : readInt? t = some n) : (Value.int n).isPrintable := by
  obtain ⟨s, _, h⟩ := Option.bind_eq_some_iff.mp h
  exact wholeNumber?_printable h

end Number

namespace Datatype

variable {d : Datatype} {s : Text} {l : Literal}

theorem readNumber?_toText {n : Numeral} (h : d.readNumber? s = some n) :
    d.readNumber? (n.toText Numeral.wireWords) = some n := by
  rw [readNumber?] at h ⊢
  split at h
  · rename_i hd
    obtain ⟨k, hk, rfl⟩ := Option.map_eq_some_iff.mp h
    have hr := Number.readInt?_ofInt (Number.readInt?_printable hk)
    rw [if_pos hd]
    exact Option.map_eq_some_iff.mpr ⟨k, hr, rfl⟩
  · rename_i hd
    obtain ⟨x, _, rfl⟩ := Option.map_eq_some_iff.mp h
    obtain ⟨y, hy, he⟩ := Number.exists_readFloat?_ofFloat x
    rw [if_neg hd]
    exact Option.map_eq_some_iff.mpr ⟨y, hy, he⟩

theorem numberLiteral_token (h : d.numberLiteral (.text s) = .ok l) :
    d.numberLiteral (.text l.token) = .ok l := by
  rw [numberLiteral] at h
  split at h
  · rename_i n hn
    cases h
    rw [numberLiteral, Literal.token, readNumber?_toText hn]
  · contradiction

theorem boolLiteral_token (h : boolLiteral (.text s) = .ok l) : boolLiteral (.text l.token) = .ok l := by
  obtain ⟨t, _, h⟩ := bind_eq_ok.mp h
  split at h
  · rename_i b _
    cases h
    cases b <;> rfl
  · contradiction

/-- An instant on the wire is in UTC and has no more than its milliseconds. -/
theorem instantLiteral_token (h : instantLiteral (.text s) = .ok l) : instantLiteral (.text l.token) = .ok l := by
  rw [instantLiteral] at h
  split at h
  · obtain ⟨c, _, rfl⟩ := Json.map_eq_ok h
    rw [instantLiteral, Literal.token, readDateTime?_timestamp]
    dsimp only
    rw [Literal.ofDateTime, DateTime.toUtc_utc]
    exact congrArg (Except.ok ∘ Literal.instant) (Timestamp.ofCivil_timeOfDay _)
  · contradiction

/-- The token of a literal that was read from text is read as the literal. -/
theorem literal_token (hd : d ≠ string) (h : d.literal (.text s) = .ok l) : d.literal (.text l.token) = .ok l := by
  cases d with
  | int => exact numberLiteral_token h
  | float => exact numberLiteral_token h
  | boolean => exact boolLiteral_token h
  | datetime => exact instantLiteral_token h
  | string => contradiction

end Datatype

/-- An equality with a text compiles to the comparison with the literal of the text. -/
theorem Rule.Typed.compileRule_equal {rule : Entries} {field s : Text} {d : Datatype}
    (h : Typed rule .equal field (.text s) d) (hints : Hints) : Filter.compileRule hints (.dict rule) =
      (d.literal (.text s)).map fun l => Token.call "eq" [field.escape, l.token] := by
  have hf : Operator.equal ≠ .fullText := nofun
  rw [h.compileRule rfl hf, convert_eq_mapM hf rfl, converted_single rfl hf rfl, List.mapM_cons, List.mapM_nil]
  cases d.literal (.text s) <;> rfl

/-- Under a datatype other than strings the literal that an equality has for a text is again what it has for the token
of that literal. -/
theorem Filter.compileRule_idempotent (hints : Hints) {rule : Entries} {field s p : Text} {d : Datatype}
    (hr : Rule.Typed rule .equal field (.text s) d) (hd : d ≠ .string)
    (hp : compileRule hints (.dict rule) = .ok p) :
    ∃ l : Literal, p = Token.call "eq" [field.escape, l.token] ∧
      compileRule hints (.dict (Rule.withValue rule (.text l.token))) = .ok p := by
  rw [hr.compileRule_equal hints] at hp
  obtain ⟨l, hl, rfl⟩ := Json.map_eq_ok hp
  refine ⟨l, rfl, ?_⟩
  rw [(hr.withValue (.text l.token)).compileRule_equal hints, Datatype.literal_token hd hl]
  rfl

/-- A float with a sign, an underscore and blanks, past the whole numbers that are spelled out. -/
theorem Filter.compileRule_idempotent_float :
    let rule := Rule.written "==" "x" (.text " +1_000e18 ") .float
    compileRule [] (.dict rule) = .ok (Text.ofString "eq(x,1e+21)") ∧
      ∃ l : Literal, Text.ofString "eq(x,1e+21)" = Token.call "eq" [Text.escape "x", l.token] ∧
        compileRule [] (.dict (Rule.withValue rule (.text l.token))) = .ok (Text.ofString "eq(x,1e+21)") := by
  intro rule
  have hp : compileRule [] (.dict rule) = .ok (Text.ofString "eq(x,1e+21)") :=
    toOption_eq_some.mp (by decide +kernel)
  exact ⟨hp, compileRule_idempotent [] (Rule.typed_written rfl "x" _ .float) nofun hp⟩

end FilterQuery
