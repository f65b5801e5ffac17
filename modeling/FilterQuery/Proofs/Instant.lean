import FilterQuery.Failure
import FilterQuery.Proofs.DayNumber

namespace FilterQuery

namespace TimeOfDay

theorem number_lt (t : TimeOfDay) : t.number < Calendar.dayLength := by
  unfold number Calendar.dayLength
  omega

theorem ofNumber_number (t : TimeOfDay) : ofNumber t.number = t := by
  obtain ⟨hour, minute, second, microsecond⟩ := t
  simp only [ofNumber, number, mk.injEq, Fin.ext_iff]
  omega

theorem number_ofNumber {n : Nat} (h : n < Calendar.dayLength) : (ofNumber n).number = n := by
  unfold Calendar.dayLength at h
  simp only [ofNumber, number]
  omega

end TimeOfDay

namespace CivilTime

/-- The first microsecond of year 1. -/
def first : CivilTime := ⟨⟨1, 1, 1, by decide⟩, .midnight⟩

/-- The last microsecond of year 9999. -/
def last : CivilTime := ⟨⟨9999, 12, 31, by decide⟩, ⟨.last 23, .last 59, .last 59, .last 999999⟩⟩

theorem number_first : first.number = 0 := by decide

theorem number_last : last.number + 1 = Calendar.daysInYears 9999 * Calendar.dayLength := by decide

theorem number_div (c : CivilTime) : c.number / Calendar.dayLength = c.date.number := by
  have ht := c.time.number_lt
  unfold Calendar.dayLength at ht
  unfold number Calendar.dayLength
  omega

theorem number_mod (c : CivilTime) : c.number % Calendar.dayLength = c.time.number := by
  have ht := c.time.number_lt
  unfold Calendar.dayLength at ht
  unfold number Calendar.dayLength
  omega

/-- A civil time of a number has that number, and every civil time is that of its number. -/
theorem ofNumber?_eq_some_iff {n : Int} {c : CivilTime} : ofNumber? n = some c ↔ (c.number : Int) = n := by
  constructor
  · intro h
    rw [ofNumber?] at h
    split at h
    · contradiction
    · obtain ⟨d, hd, rfl⟩ := Option.map_eq_some_iff.mp h
      have ht := TimeOfDay.number_ofNumber (Nat.mod_lt n.toNat (by decide : 0 < Calendar.dayLength))
      have hdiv := Nat.div_add_mod n.toNat Calendar.dayLength
      rw [Nat.mul_comm] at hdiv
      rw [number, ht, Date.number_of_ofNumber? hd, hdiv]
      omega
  · rintro rfl
    have hd : Date.ofNumber? (c.number / Calendar.dayLength) = some c.date := by
      rw [number_div]
      exact Date.ofNumber?_eq_some_iff.mpr rfl
    rw [ofNumber?, if_neg (by omega), Int.toNat_natCast, hd, number_mod, TimeOfDay.ofNumber_number]
    rfl

theorem number_injective : Function.Injective number := by
  intro c d h
  have hc := ofNumber?_eq_some_iff.mpr (Eq.refl (c.number : Int))
  rw [h, ofNumber?_eq_some_iff.mpr (Eq.refl (d.number : Int))] at hc
  exact (Option.some.inj hc).symm

theorem number_le_last (c : CivilTime) : c.number ≤ last.number := by
  have hd := c.date.number_lt_limit
  have hl := number_last
  rw [← number_div] at hd
  have hm := (Nat.div_lt_iff_lt_mul (by decide : 0 < Calendar.dayLength)).mp hd
  omega

/-- Numbers up to the last one all are those of civil times. -/
theorem exists_number {n : Int} (hf : (first.number : Int) ≤ n) (hl : n ≤ last.number) :
    ∃ c : CivilTime, (c.number : Int) = n := by
  rw [number_first] at hf
  have hlast := number_last
  have hd : n.toNat / Calendar.dayLength < Calendar.daysInYears 9999 := by
    apply (Nat.div_lt_iff_lt_mul (by decide : 0 < Calendar.dayLength)).mpr
    omega
  obtain ⟨d, hd⟩ := Date.exists_ofNumber? hd
  have ho : ofNumber? n = some ⟨d, TimeOfDay.ofNumber (n.toNat % Calendar.dayLength)⟩ := by
    rw [ofNumber?, if_neg (by omega), hd]
    rfl
  exact ⟨_, ofNumber?_eq_some_iff.mp ho⟩

end CivilTime

namespace DateTime

/-- The instant lies in the years 1 to 9999 of UTC. -/
def InRange (d : DateTime) : Prop :=
  (CivilTime.first.number : Int) ≤ d.instant ∧ d.instant ≤ CivilTime.last.number

theorem toUtc?_eq_some_iff {d : DateTime} {c : CivilTime} : d.toUtc? = some c ↔ (c.number : Int) = d.instant := by
  obtain ⟨civil, offset⟩ := d
  cases offset with
  | some o => exact CivilTime.ofNumber?_eq_some_iff
  | none =>
    have hi : instant ⟨civil, none⟩ = civil.number := by simp [instant]
    rw [toUtc?, hi, Option.some.injEq, Int.ofNat_inj]
    constructor
    · rintro rfl
      rfl
    · intro h
      exact (CivilTime.number_injective h).symm

theorem inRange_iff {d : DateTime} : d.InRange ↔ ∃ c, d.toUtc? = some c := by
  simp only [toUtc?_eq_some_iff]
  constructor
  · rintro ⟨hf, hl⟩
    exact CivilTime.exists_number hf hl
  · rintro ⟨c, hc⟩
    have hl := c.number_le_last
    rw [InRange, CivilTime.number_first]
    omega

theorem toUtc_eq_ok_iff {d : DateTime} {c : CivilTime} : d.toUtc = .ok c ↔ (c.number : Int) = d.instant := by
  rw [← toUtc?_eq_some_iff, toUtc]
  cases d.toUtc? <;> simp

theorem exists_toUtc_iff {d : DateTime} : (∃ c, d.toUtc = .ok c) ↔ d.InRange := by
  simp only [inRange_iff, toUtc_eq_ok_iff, toUtc?_eq_some_iff]

theorem toUtc_eq_error_iff {d : DateTime} {failure : Failure} :
    d.toUtc = .error failure ↔ failure = .dateOutOfRange ∧ ¬d.InRange := by
  rw [inRange_iff, toUtc]
  cases d.toUtc? <;> simp [eq_comm]

/-- What is in UTC already stays. -/
theorem toUtc_utc (c : CivilTime) : toUtc ⟨c, some .utc⟩ = .ok c := by
  apply toUtc_eq_ok_iff.mpr
  simp [instant, Offset.utc]

end DateTime

/-- The civil time in UTC of a date or a datetime is the one whose number is the instant, and stays when taken to UTC
again. It is found for every instant of the years 1 to 9999, and nothing fails but the others. -/
theorem Value.toUtc_instant {v : Value} {d : DateTime} (h : v.dateTime? = some d) :
    (∀ c : CivilTime, v.toUtc = .ok c ↔ (c.number : Int) = d.instant) ∧
      (∀ c : CivilTime, v.toUtc = .ok c → (Value.dateTime ⟨c, some .utc⟩).toUtc = .ok c) ∧
      ((∃ c, v.toUtc = .ok c) ↔
        (CivilTime.first.number : Int) ≤ d.instant ∧ d.instant ≤ CivilTime.last.number) ∧
      ∀ failure : Failure, v.toUtc = .error failure ↔ failure = .dateOutOfRange ∧
        (d.instant < CivilTime.first.number ∨ CivilTime.last.number < d.instant) := by
  have hv : v.toUtc = d.toUtc := by rw [toUtc, h]
  rw [hv]
  refine ⟨fun c => DateTime.toUtc_eq_ok_iff, fun c _ => DateTime.toUtc_utc c, DateTime.exists_toUtc_iff, ?_⟩
  intro failure
  rw [DateTime.toUtc_eq_error_iff, DateTime.InRange, not_and_or, Int.not_le, Int.not_le]

/-- An hour east of Greenwich, the year 2000 has begun and in UTC it has not. -/
theorem Value.toUtc_instant_newYear :
    let place : DateTime := ⟨⟨⟨2000, 1, 1, by decide⟩, ⟨0, 30, 0, 5⟩⟩, some ⟨3600000000, by decide⟩⟩
    let utc : CivilTime := ⟨⟨1999, 12, 31, by decide⟩, ⟨23, 30, 0, 5⟩⟩
    (Value.dateTime place).dateTime? = some place ∧ (Value.dateTime place).toUtc = .ok utc := by
  intro place utc
  have hv : (Value.dateTime place).dateTime? = some place := rfl
  exact ⟨hv, ((toUtc_instant hv).1 utc).mpr (by decide)⟩

end FilterQuery
