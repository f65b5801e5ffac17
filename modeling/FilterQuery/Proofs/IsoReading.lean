import FilterQuery.Filter.Conversion
import FilterQuery.Proofs.Escaping
import FilterQuery.Proofs.NumberReading
import FilterQuery.Proofs.Timestamp

namespace FilterQuery

open Calendar

namespace Calendar

theorem readField?_lt {width n : Nat} (h : n < 10 ^ width) (rest : Text) :
    readField? width (field width n ++ rest) = some (n, rest) :=
  readField?_eq_some_iff.mpr ⟨rfl, h⟩

theorem readField?_whole {width n : Nat} (h : n < 10 ^ width) : readField? width (field width n) = some (n, []) := by
  have hr := readField?_lt h []
  rwa [List.append_nil] at hr

theorem exists_of_mem_field {width n : Nat} {c : CodePoint} (h : c ∈ field width n) :
    ∃ d, c = CodePoint.ofDigit d := by
  induction width generalizing n with
  | zero => contradiction
  | succ width ih =>
    rcases List.mem_append.mp h with h | h
    · exact ih h
    · exact ⟨_, List.mem_singleton.mp h⟩

/-- Zeros at the end make a number greater. -/
theorem field_append_zeros (width n k : Nat) :
    field width n ++ List.replicate k (CodePoint.ofDigit 0) = field (width + k) (n * 10 ^ k) := by
  induction k with
  | zero => rw [List.replicate_zero, List.append_nil, Nat.pow_zero, Nat.mul_one, Nat.add_zero]
  | succ k ih =>
    have hp : n * 10 ^ (k + 1) = n * 10 ^ k * 10 := by rw [Nat.pow_succ, Nat.mul_assoc]
    have hr : (⟨n * 10 ^ k * 10 % 10, by omega⟩ : Fin 10) = 0 := Fin.ext (Nat.mul_mod_left _ _)
    rw [List.replicate_succ', ← List.append_assoc, ih, ← Nat.add_assoc, hp, field, hr,
      Nat.mul_div_cancel _ (by decide)]

end Calendar

namespace Iso

/-- A text of digits and the given marks. -/
def IsPlain (marks t : Text) : Prop := ∀ c ∈ t, (∃ d, c = CodePoint.ofDigit d) ∨ c ∈ marks

/-- The marks of clocks. -/
def clockMarks : Text := ":."

/-- The marks of standard texts, the one for UTC excepted. -/
def marks : Text := "+-:.T"

section
variable {marks s t : Text}

theorem IsPlain.append (hs : IsPlain marks s) (ht : IsPlain marks t) : IsPlain marks (s ++ t) :=
  List.forall_mem_append.mpr ⟨hs, ht⟩

theorem IsPlain.cons {c : CodePoint} (hc : c ∈ marks) (ht : IsPlain marks t) : IsPlain marks (c :: t) :=
  List.forall_mem_cons.mpr ⟨.inr hc, ht⟩

theorem isPlain_nil : IsPlain marks [] := List.forall_mem_nil _

theorem isPlain_field (width n : Nat) : IsPlain marks (field width n) := fun _ hc => .inl (exists_of_mem_field hc)

theorem IsPlain.forall_mem (h : IsPlain marks t) {p : CodePoint → Prop} (hd : ∀ d, p (CodePoint.ofDigit d))
    (hm : ∀ c ∈ marks, p c) : ∀ c ∈ t, p c := by
  intro c hc
  rcases h c hc with ⟨d, rfl⟩ | hc
  · exact hd d
  · exact hm c hc

end

theorem isPlain_fractionText (n : Nat) : IsPlain clockMarks (fractionText n) := by
  rw [fractionText]
  split
  · exact isPlain_nil
  · exact .cons (by decide) (isPlain_field _ _)

theorem IsPlain.clock {t : Text} (h : IsPlain clockMarks t) : IsPlain marks t := fun c hc =>
  (h c hc).imp_right ((by decide : ∀ c ∈ clockMarks, c ∈ marks) c)

theorem field_ne_nil {width n : Nat} (h : 0 < width) : field width n ≠ [] := by
  intro he
  have := congrArg List.length he
  simp only [length_field, List.length_nil] at this
  omega

theorem break?_colon {rest : Text} (h : rest ≠ []) :
    break? true (CodePoint.ofChar ':' :: rest) = some (.part rest) := by
  simp only [break?, h, false_and, if_false]
  rfl

theorem break?_point {rest : Text} (h : rest ≠ []) (colons : Bool) :
    break? colons (CodePoint.ofChar '.' :: rest) = some (.fraction rest) := by
  simp only [break?, h, false_and, if_false]
  rfl

theorem readFraction?_field {width n : Nat} (hl : width ≤ 6) (hn : n < 10 ^ width) :
    readFraction? (field width n) = some (n * 10 ^ (6 - width), []) := by
  -- Zeros fill the digits up to six.
  have ht : (field width n ++ List.replicate 6 (CodePoint.ofDigit 0)).take 6 =
      field 6 (n * 10 ^ (6 - width)) := by
    rw [List.take_append, length_field, List.take_of_length_le (by rw [length_field]; exact hl),
      List.take_replicate, Nat.min_eq_left (by omega), field_append_zeros, Nat.add_sub_cancel' hl]
  have hd : (field width n).drop 6 = [] := List.drop_of_length_le (by rw [length_field]; exact hl)
  have hb : n * 10 ^ (6 - width) < 10 ^ 6 := by
    calc n * 10 ^ (6 - width) < 10 ^ width * 10 ^ (6 - width) :=
          Nat.mul_lt_mul_of_pos_right hn (Nat.pow_pos (by decide))
      _ = 10 ^ 6 := by rw [← Nat.pow_add, Nat.add_sub_cancel' hl]
  rw [readFraction?, ht, hd, readField?_whole hb]
  rfl

/-- A point and up to six digits are the fraction of the part before. -/
theorem readParts?_point {width n : Nat} (hw : 0 < width) (hl : width ≤ 6) (hn : n < 10 ^ width) (colons : Bool)
    (count : Nat) :
    readParts? colons count (CodePoint.ofChar '.' :: field width n) = some ([], n * 10 ^ (6 - width), []) := by
  have hb := break?_point (field_ne_nil hw : field width n ≠ []) colons
  unfold readParts?
  rw [hb]
  simp only [readFraction?_field hl hn, Option.map_some]

theorem readParts?_fractionText (n : Fin 1000000) (colons : Bool) (count : Nat) :
    readParts? colons count (fractionText n) = some ([], n.val, []) := by
  rw [fractionText]
  split
  · rename_i h
    rw [h]
    unfold readParts?
    rfl
  · have h := readParts?_point (by decide) (Nat.le_refl 6) n.isLt colons count
    rwa [Nat.sub_self, Nat.pow_zero, Nat.mul_one] at h

/-- After a colon comes one more part. -/
theorem readParts?_colon {n count : Nat} (hn : n < 10 ^ 2) (rest : Text) :
    readParts? true (count + 1) (CodePoint.ofChar ':' :: (field 2 n ++ rest)) =
      (readParts? true count rest).map fun found => (n :: found.1, found.2) := by
  have hne : field 2 n ++ rest ≠ [] := List.append_ne_nil_of_left_ne_nil (field_ne_nil (by decide)) rest
  conv_lhs => unfold readParts?
  simp only [break?_colon hne, readField?_lt hn, Option.bind_eq_bind, Option.bind_some, Option.pure_def,
    Option.map_eq_bind]
  rfl

theorem readClock?_colon {hour : Nat} (hh : hour < 10 ^ 2) (rest : Text) :
    readClock? (field 2 hour ++ CodePoint.ofChar ':' :: rest) =
      (readParts? true 2 (CodePoint.ofChar ':' :: rest)).map fun found =>
        (⟨hour, found.1.getD 0 0, found.1.getD 1 0, found.2.1⟩, found.2.2) := by
  simp only [readClock?, readField?_lt hh, Option.bind_eq_bind, Option.bind_some, Option.pure_def,
    Option.map_eq_bind, List.head?_cons, decide_true]
  rfl

theorem readClock?_minutes {hour minute : Nat} (hh : hour < 10 ^ 2) (hm : minute < 10 ^ 2) :
    readClock? (field 2 hour ++ CodePoint.ofChar ':' :: field 2 minute) = some (⟨hour, minute, 0, 0⟩, []) := by
  have h := @readParts?_colon minute 1 hm []
  rw [List.append_nil] at h
  rw [readClock?_colon hh, h]
  rfl

theorem readClock?_seconds {hour minute second microsecond : Nat} (hh : hour < 10 ^ 2) (hm : minute < 10 ^ 2)
    (hs : second < 10 ^ 2) {fraction : Text} (hf : readParts? true 0 fraction = some ([], microsecond, [])) :
    readClock? (field 2 hour ++ CodePoint.ofChar ':' :: (field 2 minute ++ CodePoint.ofChar ':' ::
      (field 2 second ++ fraction))) = some (⟨hour, minute, second, microsecond⟩, []) := by
  rw [readClock?_colon hh, readParts?_colon hm, readParts?_colon hs, hf]
  rfl

end Iso

namespace Offset

theorem of?_self (o : Offset) : of? o.microseconds = some o := by
  rw [of?, dif_pos o.bounded]

/-- The sign in front of an offset. -/
def sign (o : Offset) : CodePoint := if o.microseconds < 0 then '-' else '+'

/-- The clock after the sign. -/
def clockText (o : Offset) : Text :=
  field 2 (o.microseconds.natAbs / 3600000000) ++ CodePoint.ofChar ':' ::
    (field 2 (o.microseconds.natAbs / 60000000 % 60) ++
      if o.microseconds.natAbs % 60000000 = 0 then []
      else CodePoint.ofChar ':' :: (field 2 (o.microseconds.natAbs / 1000000 % 60) ++
        fractionText (o.microseconds.natAbs % 1000000)))

theorem toIso_eq (o : Offset) : o.toIso = o.sign :: o.clockText := by
  simp only [toIso, sign, clockText, List.append_assoc]
  split <;> split <;> rfl

theorem sign_cases (o : Offset) : o.sign = CodePoint.ofChar '-' ∧ o.microseconds < 0 ∨
    o.sign = CodePoint.ofChar '+' ∧ 0 ≤ o.microseconds := by
  rw [sign]
  split
  · exact .inl ⟨rfl, ‹_›⟩
  · exact .inr ⟨rfl, by omega⟩

theorem isSign_sign (o : Offset) : Iso.isSign o.sign := by
  rcases o.sign_cases with ⟨h, -⟩ | ⟨h, -⟩ <;> rw [h] <;> rfl

theorem natAbs_lt (o : Offset) : o.microseconds.natAbs < dayLength := by
  have h := o.bounded
  simp only [Int.ofNat_eq_natCast] at h
  omega

/-- The clock of an offset of whole seconds: seconds are left out if they are none. -/
theorem readClock?_clockText {o : Offset} (h : 1000000 ∣ o.microseconds) :
    ∃ c : Iso.Clock, Iso.readClock? o.clockText = some (c, []) ∧ c.seconds * 1000000 = o.microseconds.natAbs ∧
      c.microsecond = 0 := by
  have hl := o.natAbs_lt
  have hd : o.microseconds.natAbs % 1000000 = 0 := by omega
  rw [clockText]
  generalize o.microseconds.natAbs = size at hl hd ⊢
  rw [dayLength] at hl
  have hh : size / 3600000000 < 10 ^ 2 := by omega
  have hm : size / 60000000 % 60 < 10 ^ 2 := by omega
  have hs : size / 1000000 % 60 < 10 ^ 2 := by omega
  split
  · rename_i h
    rw [List.append_nil]
    refine ⟨_, Iso.readClock?_minutes hh hm, ?_, rfl⟩
    simp only [Iso.Clock.seconds]
    omega
  · rw [hd]
    refine ⟨_, Iso.readClock?_seconds hh hm hs (Iso.readParts?_fractionText 0 true 0), ?_, rfl⟩
    simp only [Iso.Clock.seconds]
    omega

/-- An offset of whole seconds is read back. -/
theorem readOffset?_clockText {o : Offset} (h : 1000000 ∣ o.microseconds) :
    Iso.readOffset? o.sign o.clockText = some o := by
  obtain ⟨c, hc, hs, hf⟩ := readClock?_clockText h
  have hend : Iso.isEnd [] = true := rfl
  have hz : ¬o.sign = CodePoint.ofChar 'Z' := by
    rcases o.sign_cases with ⟨h, -⟩ | ⟨h, -⟩ <;> rw [h] <;> decide
  have he : (if o.sign = CodePoint.ofChar '-' then -Int.ofNat o.microseconds.natAbs
      else Int.ofNat o.microseconds.natAbs) = o.microseconds := by
    rcases o.sign_cases with ⟨hm, hn⟩ | ⟨hm, hn⟩
    · rw [hm, if_pos rfl, Int.ofNat_eq_natCast]
      omega
    · rw [hm, if_neg (by decide), Int.ofNat_eq_natCast]
      omega
  rw [Iso.readOffset?, hc, if_neg hz]
  simp only [Option.bind_eq_bind, Option.bind_some, hend, hf, hs, Nat.add_zero, he, of?_self, Bool.not_true,
    Bool.false_eq_true, if_false]
  -- A clock without seconds is UTC under either sign; with offsets of whole seconds that is the offset zero alone.
  split
  · rename_i h0
    have hzero : o.microseconds = 0 := by omega
    rw [← of?_self o, hzero]
    rfl
  · rfl

theorem isPlain_toIso (o : Offset) : Iso.IsPlain Iso.marks o.toIso := by
  have hs : o.sign ∈ Iso.marks := by
    rcases o.sign_cases with ⟨h, -⟩ | ⟨h, -⟩ <;> rw [h] <;> decide
  rw [toIso_eq, clockText]
  refine .cons hs ((Iso.isPlain_field _ _).append (.cons (by decide) ((Iso.isPlain_field _ _).append ?_)))
  split
  · exact Iso.isPlain_nil
  · exact .cons (by decide) ((Iso.isPlain_field _ _).append (Iso.isPlain_fractionText _).clock)

end Offset

namespace Iso

section
variable {clock : Text} {c : Clock} {t : TimeOfDay}

theorem IsPlain.not_sign (h : IsPlain clockMarks clock) : ∀ c ∈ clock, (!isSign c) = true :=
  h.forall_mem (by decide) (by decide)

/-- A clock alone is a time of day without an offset. -/
theorem readTime?_clock (hs : IsPlain clockMarks clock) (hc : readClock? clock = some (c, []))
    (ht : c.time? = some t) : readTime? clock = some (t, none) := by
  have htake : clock.takeWhile (!isSign ·) = clock := List.takeWhile_eq_self_iff.mpr hs.not_sign
  have hdrop : clock.dropWhile (!isSign ·) = [] := List.dropWhile_eq_nil_iff.mpr hs.not_sign
  rw [readTime?, htake, hdrop, hc]
  simp only [Option.bind_eq_bind, Option.bind_some, ht]
  rfl

/-- A sign after the clock begins the offset. -/
theorem readTime?_sign (hs : IsPlain clockMarks clock) (hc : readClock? clock = some (c, [])) (ht : c.time? = some t)
    {sign : CodePoint} (hsign : isSign sign) (rest : Text) :
    readTime? (clock ++ sign :: rest) = (readOffset? sign rest).map fun o => (t, some o) := by
  have htake : (clock ++ sign :: rest).takeWhile (!isSign ·) = clock := by
    rw [List.takeWhile_append_of_pos hs.not_sign]
    simp [hsign]
  have hdrop : (clock ++ sign :: rest).dropWhile (!isSign ·) = sign :: rest := by
    rw [List.dropWhile_append_of_pos hs.not_sign]
    simp [hsign]
  rw [readTime?, htake, hdrop, hc]
  simp only [Option.bind_eq_bind, Option.bind_some, ht, Option.pure_def, Option.map_eq_bind]
  rfl

end

theorem withoutSurrogates?_of_none {t : Text} (h : ∀ c ∈ t, c.isSurrogate = false) :
    withoutSurrogates? t = some t := by
  have hfind : separatorPlaces.find? (fun place => t[place]?.any CodePoint.isSurrogate) = none := by
    apply List.find?_eq_none.mpr
    intro place _ hp
    cases hc : t[place]? with
    | none => simp [hc] at hp
    | some c => simp [hc, h c (List.mem_of_getElem? hc)] at hp
  have hany : t.any CodePoint.isSurrogate = false := by
    simpa using h
  simp only [withoutSurrogates?, hfind, hany, Bool.false_eq_true, if_false]

theorem IsPlain.not_surrogate {t : Text} (h : IsPlain marks t) : ∀ c ∈ t, c.isSurrogate = false :=
  h.forall_mem (by decide) (by decide)

end Iso

namespace Date

theorem length_toIso (d : Date) : d.toIso.length = 10 := by
  simp only [toIso, List.length_append, length_field]
  rfl

theorem dateLength_toIso (d : Date) (rest : Text) : Iso.dateLength (d.toIso ++ rest) = 10 := by
  have hdash : (d.toIso ++ rest)[4]? = some (CodePoint.ofChar '-') := rfl
  have hdigit : (d.toIso ++ rest)[5]? = some (CodePoint.ofDigit ⟨d.month / 10 % 10, by omega⟩) := rfl
  have hne : ∀ x, ¬some (CodePoint.ofDigit x) = some (CodePoint.ofChar 'W') := by decide
  simp only [Iso.dateLength, Iso.isAt, hdash, hdigit, hne, decide_true, decide_false, Bool.false_eq_true,
    if_true, if_false]

theorem readDate?_toIso (d : Date) : Iso.readDate? d.toIso = some d := by
  obtain ⟨_, hy, _, hm, _, hd⟩ := d.isDate
  have hl := daysInMonth_le d.year d.month
  have h : d.toIso = field 4 d.year ++ CodePoint.ofChar '-' :: (field 2 d.month ++ CodePoint.ofChar '-' ::
      field 2 d.day) := by
    simp only [toIso, List.append_assoc]
    rfl
  have hw : ¬(field 2 d.month ++ CodePoint.ofChar '-' :: field 2 d.day).head? = some (CodePoint.ofChar 'W') :=
    (by decide : ∀ x, ¬some (CodePoint.ofDigit x) = some (CodePoint.ofChar 'W')) ⟨d.month / 10 % 10, by omega⟩
  rw [h, Iso.readDate?, readField?_lt (by omega)]
  simp only [Option.bind_eq_bind, Option.bind_some, Option.pure_def, List.head?_cons, List.drop_one, List.tail_cons,
    decide_true, if_true, hw, if_false, Iso.readMonthDate?, readField?_lt (by omega : d.month < 10 ^ 2),
    Text.after?_cons, readField?_whole (by omega : d.day < 10 ^ 2), Date.of?_self]

theorem isPlain_toIso (d : Date) : Iso.IsPlain Iso.marks d.toIso := by
  simp only [toIso]
  have hdash : Iso.IsPlain Iso.marks (Text.ofString "-") := .cons (by decide) Iso.isPlain_nil
  exact ((((Iso.isPlain_field _ _).append hdash).append (Iso.isPlain_field _ _)).append hdash).append
    (Iso.isPlain_field _ _)

end Date

namespace TimeOfDay

theorem toIso_eq (t : TimeOfDay) : t.toIso =
    field 2 t.hour ++ CodePoint.ofChar ':' :: (field 2 t.minute ++ CodePoint.ofChar ':' ::
      (field 2 t.second ++ fractionText t.microsecond)) := by
  simp only [toIso, List.append_assoc]
  rfl

theorem of?_self (t : TimeOfDay) : of? t.hour t.minute t.second t.microsecond = some t := by
  rw [of?, dif_pos ⟨t.hour.isLt, t.minute.isLt, t.second.isLt, t.microsecond.isLt⟩]

theorem readClock?_toIso (t : TimeOfDay) :
    Iso.readClock? t.toIso = some (⟨t.hour, t.minute, t.second, t.microsecond⟩, []) := by
  rw [toIso_eq]
  exact Iso.readClock?_seconds (by omega) (by omega) (by omega) (Iso.readParts?_fractionText _ true 0)

theorem isPlain_toIso (t : TimeOfDay) : Iso.IsPlain Iso.clockMarks t.toIso := by
  rw [toIso_eq]
  exact (Iso.isPlain_field _ _).append (.cons (by decide) ((Iso.isPlain_field _ _).append
    (.cons (by decide) ((Iso.isPlain_field _ _).append (Iso.isPlain_fractionText _)))))

end TimeOfDay

namespace Iso

theorem readDateTime?_date (d : Date) : readDateTime? d.toIso = some (.ofDate d) := by
  have hl := d.dateLength_toIso []
  rw [List.append_nil] at hl
  have hd : d.toIso.drop 10 = [] := List.drop_of_length_le (by rw [d.length_toIso])
  have ht : d.toIso.take 10 = d.toIso := List.take_of_length_le (by rw [d.length_toIso])
  simp only [readDateTime?, withoutSurrogates?_of_none d.isPlain_toIso.not_surrogate, Option.bind_eq_bind,
    Option.bind_some, hl, hd, ht, d.readDate?_toIso]
  rfl

/-- After a date and a separator comes a time. -/
theorem readDateTime?_time {d : Date} {separator : CodePoint} {rest : Text}
    (hs : ∀ c ∈ d.toIso ++ separator :: rest, c.isSurrogate = false) :
    readDateTime? (d.toIso ++ separator :: rest) = (readTime? rest).map fun p => ⟨⟨d, p.1⟩, p.2⟩ := by
  simp only [readDateTime?, withoutSurrogates?_of_none hs, Option.bind_eq_bind, Option.bind_some,
    d.dateLength_toIso, List.take_left' d.length_toIso, List.drop_left' d.length_toIso, d.readDate?_toIso,
    Option.pure_def, Option.map_eq_bind]
  rfl

end Iso

namespace DateTime

theorem toIso_eq (d : DateTime) : d.toIso "T" =
    d.civil.date.toIso ++ CodePoint.ofChar 'T' :: (d.civil.time.toIso ++ (d.offset.map Offset.toIso).getD []) := by
  simp only [toIso, List.append_assoc]
  rfl

theorem isPlain_toIso (d : DateTime) : Iso.IsPlain Iso.marks (d.toIso "T") := by
  rw [toIso_eq]
  refine d.civil.date.isPlain_toIso.append (.cons (by decide) (d.civil.time.isPlain_toIso.clock.append ?_))
  cases d.offset with
  | none => exact Iso.isPlain_nil
  | some o => exact o.isPlain_toIso

/-- A datetime with an offset of whole seconds or none is read back. -/
theorem readDateTime?_toIso {d : DateTime} (h : ∀ o ∈ d.offset, 1000000 ∣ o.microseconds) :
    Iso.readDateTime? (d.toIso "T") = some d := by
  have hs := d.isPlain_toIso.not_surrogate
  rw [toIso_eq] at hs
  rw [toIso_eq, Iso.readDateTime?_time hs]
  obtain ⟨⟨date, time⟩, offset⟩ := d
  cases offset with
  | none =>
    dsimp only [Option.map_none, Option.getD_none]
    rw [List.append_nil, Iso.readTime?_clock time.isPlain_toIso time.readClock?_toIso time.of?_self]
    rfl
  | some o =>
    dsimp only [Option.map_some, Option.getD_some]
    rw [o.toIso_eq, Iso.readTime?_sign time.isPlain_toIso time.readClock?_toIso time.of?_self o.isSign_sign,
      Offset.readOffset?_clockText (h o rfl)]
    rfl

end DateTime

namespace Timestamp

def clockText (t : Timestamp) : Text :=
  field 2 t.hour ++ CodePoint.ofChar ':' :: (field 2 t.minute ++ CodePoint.ofChar ':' ::
    (field 2 t.second ++ CodePoint.ofChar '.' :: field 3 t.millisecond))

theorem toText_eq_append (t : Timestamp) :
    t.toText = t.date.toIso ++ CodePoint.ofChar 'T' :: t.clockText ++ Text.ofString "Z" := by
  simp only [toText, clockText, Date.toIso, List.append_assoc, List.cons_append]
  rfl

theorem isPlain_clockText (t : Timestamp) : Iso.IsPlain Iso.clockMarks t.clockText := by
  rw [clockText]
  exact (Iso.isPlain_field _ _).append (.cons (by decide) ((Iso.isPlain_field _ _).append
    (.cons (by decide) ((Iso.isPlain_field _ _).append (.cons (by decide) (Iso.isPlain_field _ _))))))

theorem readClock?_clockText (t : Timestamp) :
    Iso.readClock? t.clockText = some (⟨t.hour, t.minute, t.second, t.timeOfDay.microsecond⟩, []) :=
  Iso.readClock?_seconds (by omega) (by omega) (by omega)
    (Iso.readParts?_point (by decide) (by decide) (by omega) true 0)

end Timestamp

theorem Iso.IsPlain.not_blank {t : Text} (h : IsPlain marks t) : ∀ c ∈ t, c.isBlank = false :=
  h.forall_mem (by decide) (by decide)

theorem Iso.IsPlain.substitute {t : Text} (h : IsPlain marks t) (new : Text) :
    Text.substitute (CodePoint.ofChar 'Z') new t = t :=
  Text.substitute_of_not_mem (fun hc =>
    h.forall_mem (p := (· ≠ CodePoint.ofChar 'Z')) (by decide) (by decide) _ hc rfl) new

namespace Datatype

theorem readDateTime?_of_isPlain {t : Text} (h : Iso.IsPlain Iso.marks t) :
    readDateTime? t = Iso.readDateTime? t := by
  rw [readDateTime?, Text.trim_of_none h.not_blank, h.substitute]

theorem readDateTime?_date (d : Date) : readDateTime? d.toIso = some (.ofDate d) := by
  rw [readDateTime?_of_isPlain d.isPlain_toIso, Iso.readDateTime?_date]

theorem readDateTime?_dateTime {d : DateTime} (h : ∀ o ∈ d.offset, 1000000 ∣ o.microseconds) :
    readDateTime? (d.toIso "T") = some d := by
  rw [readDateTime?_of_isPlain d.isPlain_toIso, d.readDateTime?_toIso h]

/-- An instant on the wire is the datetime in UTC at its millisecond. -/
theorem readDateTime?_timestamp (t : Timestamp) :
    readDateTime? t.toText = some ⟨⟨t.date, t.timeOfDay⟩, some .utc⟩ := by
  have hp : Iso.IsPlain Iso.marks (t.date.toIso ++ CodePoint.ofChar 'T' :: t.clockText) :=
    t.date.isPlain_toIso.append (.cons (by decide) t.isPlain_clockText.clock)
  have hb : ∀ c ∈ t.date.toIso ++ CodePoint.ofChar 'T' :: t.clockText ++ Text.ofString "Z", c.isBlank = false :=
    List.forall_mem_append.mpr ⟨hp.not_blank, by decide⟩
  have hz : Text.substitute (CodePoint.ofChar 'Z') "+00:00" (Text.ofString "Z") = Text.ofString "+00:00" := by
    decide
  have hs : ∀ c ∈ t.date.toIso ++ CodePoint.ofChar 'T' :: (t.clockText ++ Text.ofString "+00:00"),
      c.isSurrogate = false := by
    rw [← List.cons_append, ← List.append_assoc]
    exact List.forall_mem_append.mpr ⟨hp.not_surrogate, by decide⟩
  have hplus : Text.ofString "+00:00" = CodePoint.ofChar '+' :: Text.ofString "00:00" := rfl
  rw [readDateTime?, t.toText_eq_append, Text.trim_of_none hb, Text.substitute_append, hp.substitute, hz,
    List.append_assoc, List.cons_append, Iso.readDateTime?_time hs, hplus,
    Iso.readTime?_sign t.isPlain_clockText t.readClock?_clockText t.timeOfDay.of?_self rfl]
  rfl

end Datatype

end FilterQuery
