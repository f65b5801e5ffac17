import FilterQuery.Calendar.Timestamp
import FilterQuery.Proofs.Numeral
import Mathlib.Algebra.Order.Ring.Int

namespace FilterQuery

namespace Calendar

/-- A field that is written and followed by anything is read back, up to the digits that did not fit. -/
theorem readField?_field (width n : Nat) (rest : Text) :
    readField? width (field width n ++ rest) = some (n % 10 ^ width, rest) := by
  induction width generalizing n rest with
  | zero => simp [field, readField?, Nat.mod_one]
  | succ width ih =>
    simp only [field, List.append_assoc, List.singleton_append, readField?, ih, Option.bind_eq_bind,
      Option.bind_some, CodePoint.digit?_ofDigit, Option.pure_def, Option.some.injEq, Prod.mk.injEq, and_true]
    rw [Nat.pow_succ, Nat.mul_comm (10 ^ width) 10, Nat.mod_mul]
    omega

theorem readField?_sound {width n : Nat} {t rest : Text} (h : readField? width t = some (n, rest)) :
    t = field width n ++ rest ∧ n < 10 ^ width := by
  induction width generalizing n rest with
  | zero =>
    cases h
    exact ⟨rfl, by decide⟩
  | succ width ih =>
    simp only [readField?, Option.bind_eq_bind, Option.bind_eq_some_iff] at h
    obtain ⟨⟨m, r⟩, hm, h⟩ := h
    obtain ⟨rfl, hl⟩ := ih hm
    cases r with
    | nil => contradiction
    | cons c r =>
      simp only [Option.bind_eq_some_iff, Option.pure_def, Option.some.injEq, Prod.mk.injEq] at h
      obtain ⟨d, hd, rfl, rfl⟩ := h
      have hq : (m * 10 + d.val) / 10 = m := by omega
      have hr : (m * 10 + d.val) % 10 = d.val := by omega
      refine ⟨?_, by rw [Nat.pow_succ]; omega⟩
      simp only [field, hq, hr, CodePoint.eq_ofDigit hd, List.append_assoc, List.singleton_append]

theorem readField?_eq_some_iff {width n : Nat} {t rest : Text} :
    readField? width t = some (n, rest) ↔ t = field width n ++ rest ∧ n < 10 ^ width := by
  constructor
  · exact readField?_sound
  · rintro ⟨rfl, hl⟩
    rw [readField?_field, Nat.mod_eq_of_lt hl]

theorem atomic_field (width n : Nat) : Text.Atomic (field width n) := by
  induction width generalizing n with
  | zero => exact (by decide : Text.Atomic [])
  | succ width ih =>
    have hd := CodePoint.isAtomic_of_isUnreserved (CodePoint.isUnreserved_ofDigit ⟨n % 10, by omega⟩)
    exact (ih _).append (.cons hd (by decide))

theorem daysInMonth_le (year month : Nat) : daysInMonth year month ≤ 31 := by
  simp only [daysInMonth, monthLengths, List.getD_eq_getElem?_getD]
  split
  · omega
  · rename_i h
    obtain ⟨m, rfl⟩ := Nat.exists_eq_succ_of_ne_zero h
    match m with
    | 0 | 2 | 3 | 4 | 5 | 6 | 7 | 8 | 9 | 10 | 11 => simp
    | 1 => simp; split <;> omega
    | m + 12 => simp

end Calendar

theorem Date.eq_of_of? {year month day : Nat} {d : Date} (h : Date.of? year month day = some d) :
    year = d.year ∧ month = d.month ∧ day = d.day := by
  rw [Date.of?] at h
  split at h
  · cases h
    exact ⟨rfl, rfl, rfl⟩
  · contradiction

theorem TimeOfDay.eq_of_of? {hour minute second microsecond : Nat} {t : TimeOfDay}
    (h : TimeOfDay.of? hour minute second microsecond = some t) :
    hour = t.hour ∧ minute = t.minute ∧ second = t.second ∧ microsecond = t.microsecond := by
  rw [TimeOfDay.of?] at h
  split at h
  · cases h
    exact ⟨rfl, rfl, rfl, rfl⟩
  · contradiction

namespace Timestamp

open Calendar

/-- The layout as one list, each separator in front of what follows it. -/
theorem toText_eq (t : Timestamp) : t.toText =
    field 4 t.date.year ++ CodePoint.ofChar '-' :: (field 2 t.date.month ++ CodePoint.ofChar '-' ::
      (field 2 t.date.day ++ CodePoint.ofChar 'T' :: (field 2 t.hour ++ CodePoint.ofChar ':' ::
        (field 2 t.minute ++ CodePoint.ofChar ':' :: (field 2 t.second ++ CodePoint.ofChar '.' ::
          (field 3 t.millisecond ++ Text.ofString "Z")))))) := by
  simp only [toText, List.append_assoc]
  rfl

theorem atomic (t : Timestamp) : Text.Atomic t.toText := by
  rw [toText_eq]
  refine (atomic_field _ _).append (.cons (by decide) ?_)
  refine (atomic_field _ _).append (.cons (by decide) ?_)
  refine (atomic_field _ _).append (.cons (by decide) ?_)
  refine (atomic_field _ _).append (.cons (by decide) ?_)
  refine (atomic_field _ _).append (.cons (by decide) ?_)
  refine (atomic_field _ _).append (.cons (by decide) ?_)
  exact (atomic_field _ _).append (by decide)

/-- The time of day at the millisecond. -/
def timeOfDay (t : Timestamp) : TimeOfDay := ⟨t.hour, t.minute, t.second, ⟨t.millisecond.val * 1000, by omega⟩⟩

theorem ofCivil_timeOfDay (t : Timestamp) : ofCivil ⟨t.date, t.timeOfDay⟩ = t := by
  have hm : t.millisecond.val * 1000 / 1000 = t.millisecond.val := Nat.mul_div_cancel _ (by decide)
  simp only [ofCivil, timeOfDay, hm]

theorem time?_millisecond (t : Timestamp) :
    TimeOfDay.of? t.hour t.minute t.second (t.millisecond * 1000) = some t.timeOfDay := by
  rw [TimeOfDay.of?, dif_pos (by omega)]
  rfl

theorem read?_toText (t : Timestamp) : read? t.toText = some t := by
  obtain ⟨_, hy, _, hm, _, hd⟩ := t.date.isDate
  have hl := daysInMonth_le t.date.year t.date.month
  rw [toText_eq]
  refine Option.bind_eq_some_iff.mpr ⟨_, readField?_eq_some_iff.mpr ⟨rfl, by omega⟩, ?_⟩
  refine Option.bind_eq_some_iff.mpr ⟨_, Text.after?_cons _ _, ?_⟩
  refine Option.bind_eq_some_iff.mpr ⟨_, readField?_eq_some_iff.mpr ⟨rfl, by omega⟩, ?_⟩
  refine Option.bind_eq_some_iff.mpr ⟨_, Text.after?_cons _ _, ?_⟩
  refine Option.bind_eq_some_iff.mpr ⟨_, readField?_eq_some_iff.mpr ⟨rfl, by omega⟩, ?_⟩
  refine Option.bind_eq_some_iff.mpr ⟨_, Text.after?_cons _ _, ?_⟩
  refine Option.bind_eq_some_iff.mpr ⟨_, readField?_eq_some_iff.mpr ⟨rfl, by omega⟩, ?_⟩
  refine Option.bind_eq_some_iff.mpr ⟨_, Text.after?_cons _ _, ?_⟩
  refine Option.bind_eq_some_iff.mpr ⟨_, readField?_eq_some_iff.mpr ⟨rfl, by omega⟩, ?_⟩
  refine Option.bind_eq_some_iff.mpr ⟨_, Text.after?_cons _ _, ?_⟩
  refine Option.bind_eq_some_iff.mpr ⟨_, readField?_eq_some_iff.mpr ⟨rfl, by omega⟩, ?_⟩
  refine Option.bind_eq_some_iff.mpr ⟨_, Text.after?_cons _ _, ?_⟩
  refine Option.bind_eq_some_iff.mpr ⟨_, readField?_eq_some_iff.mpr ⟨rfl, by omega⟩, ?_⟩
  refine Option.bind_eq_some_iff.mpr ⟨_, Date.of?_self t.date, ?_⟩
  refine Option.bind_eq_some_iff.mpr ⟨_, time?_millisecond t, ?_⟩
  simp only [if_pos, Option.pure_def, ofCivil_timeOfDay]

theorem toText_of_read? {s : Text} {t : Timestamp} (h : read? s = some t) : s = t.toText := by
  obtain ⟨⟨year, _⟩, hy, h⟩ := Option.bind_eq_some_iff.mp h
  obtain ⟨_, hs₁, h⟩ := Option.bind_eq_some_iff.mp h
  obtain ⟨⟨month, _⟩, hm, h⟩ := Option.bind_eq_some_iff.mp h
  obtain ⟨_, hs₂, h⟩ := Option.bind_eq_some_iff.mp h
  obtain ⟨⟨day, _⟩, hd, h⟩ := Option.bind_eq_some_iff.mp h
  obtain ⟨_, hs₃, h⟩ := Option.bind_eq_some_iff.mp h
  obtain ⟨⟨hour, _⟩, hh, h⟩ := Option.bind_eq_some_iff.mp h
  obtain ⟨_, hs₄, h⟩ := Option.bind_eq_some_iff.mp h
  obtain ⟨⟨minute, _⟩, hi, h⟩ := Option.bind_eq_some_iff.mp h
  obtain ⟨_, hs₅, h⟩ := Option.bind_eq_some_iff.mp h
  obtain ⟨⟨second, _⟩, hs, h⟩ := Option.bind_eq_some_iff.mp h
  obtain ⟨_, hs₆, h⟩ := Option.bind_eq_some_iff.mp h
  obtain ⟨⟨millisecond, rest⟩, hf, h⟩ := Option.bind_eq_some_iff.mp h
  obtain ⟨date, hdate, h⟩ := Option.bind_eq_some_iff.mp h
  obtain ⟨time, htime, h⟩ := Option.bind_eq_some_iff.mp h
  have hl : s = field 4 year ++ CodePoint.ofChar '-' :: (field 2 month ++ CodePoint.ofChar '-' ::
      (field 2 day ++ CodePoint.ofChar 'T' :: (field 2 hour ++ CodePoint.ofChar ':' ::
        (field 2 minute ++ CodePoint.ofChar ':' :: (field 2 second ++ CodePoint.ofChar '.' ::
          (field 3 millisecond ++ rest)))))) := by
    simp only [Text.after?_eq_some_iff] at hs₁ hs₂ hs₃ hs₄ hs₅ hs₆
    rw [(readField?_sound hy).1, hs₁, (readField?_sound hm).1, hs₂, (readField?_sound hd).1, hs₃,
      (readField?_sound hh).1, hs₄, (readField?_sound hi).1, hs₅, (readField?_sound hs).1, hs₆,
      (readField?_sound hf).1]
  split at h
  · rename_i hz
    cases h
    obtain ⟨rfl, rfl, rfl⟩ := Date.eq_of_of? hdate
    obtain ⟨rfl, rfl, rfl, hms⟩ := TimeOfDay.eq_of_of? htime
    have hq : time.microsecond.val / 1000 = millisecond := by omega
    rw [hl, toText_eq, hz]
    simp only [ofCivil, hq]
  · contradiction

theorem read?_eq_some_iff {s : Text} {t : Timestamp} : read? s = some t ↔ s = t.toText := by
  constructor
  · exact toText_of_read?
  · intro h
    rw [h, read?_toText]

end Timestamp

end FilterQuery
