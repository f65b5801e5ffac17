import FilterQuery.Calendar.DateTime
import FilterQuery.Proofs.Timestamp

namespace FilterQuery

namespace Calendar

def yearLength (year : Nat) : Nat := if isLeap year then 366 else 365

/-- Days of a year before the first of a month. -/
def daysBefore (year month : Nat) : Nat := ((monthLengths year).take (month - 1)).sum

theorem daysInYears_succ (n : Nat) : daysInYears (n + 1) = daysInYears n + yearLength (n + 1) := by
  -- Each quotient grows at its own multiples, and a leap year is one where an odd number of them grow.
  have h4 : (n + 1) / 4 = n / 4 + if (n + 1) % 4 = 0 then 1 else 0 := by split <;> omega
  have h100 : (n + 1) / 100 = n / 100 + if (n + 1) % 100 = 0 then 1 else 0 := by split <;> omega
  have h400 : (n + 1) / 400 = n / 400 + if (n + 1) % 400 = 0 then 1 else 0 := by split <;> omega
  have hle : n / 100 ≤ n / 4 := by omega
  have hc : (n + 1) % 100 = 0 → (n + 1) % 4 = 0 := by omega
  have hd : (n + 1) % 400 = 0 → (n + 1) % 100 = 0 := by omega
  rw [daysInYears, daysInYears, h4, h100, h400, yearLength]
  simp only [isLeap, Bool.and_eq_true, Bool.or_eq_true, decide_eq_true_eq]
  grind

theorem daysInYears_le {m n : Nat} (h : m ≤ n) : daysInYears m ≤ daysInYears n := by
  induction h with
  | refl => exact Nat.le_refl _
  | step _ ih =>
    rw [daysInYears_succ]
    omega

theorem sum_monthLengths (year : Nat) : (monthLengths year).sum = yearLength year := by
  unfold monthLengths yearLength
  split <;> rfl

theorem daysBefore_succ (year : Nat) {month : Nat} (h : 1 ≤ month) :
    daysBefore year (month + 1) = daysBefore year month + daysInMonth year month := by
  obtain ⟨m, rfl⟩ := Nat.exists_eq_succ_of_ne_zero (Nat.ne_of_gt h)
  rw [daysBefore, daysBefore, daysInMonth, if_neg (Nat.succ_ne_zero m)]
  simp only [Nat.succ_eq_add_one, Nat.add_sub_cancel]
  rw [List.take_add_one, List.sum_append_nat, List.getD_eq_getElem?_getD]
  cases (monthLengths year)[m]? <;> simp

/-- The months before a later one hold all days of an earlier one. -/
theorem daysBefore_add_le (year : Nat) {month later : Nat} (h : 1 ≤ month) (hl : month < later) :
    daysBefore year month + daysInMonth year month ≤ daysBefore year later := by
  induction hl with
  | refl => rw [daysBefore_succ year h]
  | @step m hm ih =>
    rw [daysBefore_succ year (Nat.le_of_lt (Nat.lt_of_le_of_lt h hm))]
    omega

/-- A month after some others has its own days, and those of the others come before it. -/
theorem month_of_split {year length : Nat} {passed later : List Nat}
    (h : monthLengths year = passed ++ length :: later) : passed.length < 12 ∧
      daysBefore year (1 + passed.length) = passed.sum ∧ daysInMonth year (1 + passed.length) = length := by
  refine ⟨?_, ?_, ?_⟩
  · have hl := congrArg List.length h
    simp only [monthLengths, List.length_cons, List.length_nil, List.length_append] at hl
    omega
  · rw [daysBefore, h, Nat.add_sub_cancel_left, List.take_left]
  · rw [daysInMonth, if_neg (by omega), h, Nat.add_sub_cancel_left, List.getD_eq_getElem?_getD,
      List.getElem?_append_right (Nat.le_refl _), Nat.sub_self]
    rfl

theorem daysBefore_thirteen (year : Nat) : daysBefore year 13 = yearLength year := by
  rw [daysBefore, ← sum_monthLengths]
  rfl

end Calendar

namespace Date

open Calendar

/-- The order of dates, by year, month and day. -/
def Before (d e : Date) : Prop :=
  d.year < e.year ∨ d.year = e.year ∧ (d.month < e.month ∨ d.month = e.month ∧ d.day < e.day)

theorem number_eq (d : Date) :
    d.number = daysInYears (d.year - 1) + (daysBefore d.year d.month + (d.day - 1)) := by
  rw [number, daysBefore, List.sum_eq_foldl, Nat.add_assoc]

theorem dayOfYear_lt (d : Date) : daysBefore d.year d.month + (d.day - 1) < yearLength d.year := by
  obtain ⟨_, _, hm, hl, hd, hi⟩ := d.isDate
  have hb := daysBefore_add_le d.year hm (Nat.lt_succ_of_le hl)
  rw [daysBefore_thirteen] at hb
  omega

/-- A date lies in its own year. -/
theorem number_bounds (d : Date) :
    daysInYears (d.year - 1) ≤ d.number ∧ d.number < daysInYears d.year := by
  have hy := d.isDate.1
  have hd := d.dayOfYear_lt
  have hs := daysInYears_succ (d.year - 1)
  rw [Nat.sub_add_cancel hy] at hs
  rw [number_eq]
  omega

theorem number_lt_limit (d : Date) : d.number < daysInYears 9999 := by
  have hl := daysInYears_le d.isDate.2.1
  have hb := d.number_bounds
  omega

theorem number_lt_of_before {d e : Date} (h : d.Before e) : d.number < e.number := by
  obtain ⟨_, _, hm, _, hd, hi⟩ := d.isDate
  have hb := d.number_bounds
  have hc := e.number_bounds
  have he := e.isDate.2.2.2.2.1
  rcases h with hy | ⟨hy, hmonth | ⟨hmonth, hday⟩⟩
  · have hl := daysInYears_le (Nat.le_sub_one_of_lt hy)
    omega
  · have hl := daysBefore_add_le d.year hm hmonth
    rw [number_eq, number_eq, ← hy]
    omega
  · rw [number_eq, number_eq, ← hy, ← hmonth]
    omega

theorem before_or_eq_or_before (d e : Date) : d.Before e ∨ d = e ∨ e.Before d := by
  obtain ⟨y, m, n, _⟩ := d
  obtain ⟨y', m', n', _⟩ := e
  simp only [Before, mk.injEq]
  omega

/-- Numbers are ordered as the dates are. -/
theorem number_lt_iff {d e : Date} : d.number < e.number ↔ d.Before e := by
  refine ⟨?_, number_lt_of_before⟩
  intro h
  rcases before_or_eq_or_before d e with hb | rfl | hb
  · exact hb
  · exact absurd h (Nat.lt_irrefl _)
  · exact absurd h (Nat.lt_asymm (number_lt_of_before hb))

theorem number_injective : Function.Injective number := by
  intro d e h
  rcases before_or_eq_or_before d e with hb | he | hb
  · exact absurd h (Nat.ne_of_lt (number_lt_of_before hb))
  · exact he
  · exact absurd h.symm (Nat.ne_of_lt (number_lt_of_before hb))

/-- The guess at the years is right, or one too many or too few, and both are put right. -/
theorem yearsBefore_bounds (n : Nat) :
    daysInYears (yearsBefore n) ≤ n ∧ n < daysInYears (yearsBefore n + 1) := by
  have hfew : daysInYears (n * 400 / 146097 - 1) ≤ n := by
    unfold daysInYears
    omega
  have hmany : n < daysInYears (n * 400 / 146097 + 2) := by
    unfold daysInYears
    omega
  have hnone : daysInYears 0 = 0 := rfl
  simp only [yearsBefore]
  split
  · rename_i h
    have hpos : n * 400 / 146097 ≠ 0 := by
      intro hz
      rw [hz, hnone] at h
      contradiction
    rw [Nat.sub_add_cancel (Nat.pos_of_ne_zero hpos)]
    exact ⟨hfew, h⟩
  split
  · rename_i h
    exact ⟨h, hmany⟩
  · rename_i h hm
    exact ⟨Nat.le_of_not_lt h, Nat.lt_of_not_le hm⟩

/-- The month found has the day found, and the months passed over make up the rest. -/
theorem monthAndDay_sound {lengths : List Nat} {first days month day : Nat}
    (h : monthAndDay lengths first days = some (month, day)) :
    ∃ passed length later, lengths = passed ++ length :: later ∧ month = first + passed.length ∧
      day = days - passed.sum + 1 ∧ passed.sum ≤ days ∧ day ≤ length := by
  induction lengths generalizing first days with
  | nil => contradiction
  | cons length rest ih =>
    rw [monthAndDay] at h
    split at h
    · cases h
      exact ⟨[], length, rest, rfl, rfl, rfl, Nat.zero_le _, by omega⟩
    · obtain ⟨passed, l, later, rfl, hm, hd, hs, hl⟩ := ih h
      refine ⟨length :: passed, l, later, rfl, ?_, ?_, ?_, hl⟩
      · rw [hm, List.length_cons]
        omega
      · rw [hd, List.sum_cons, Nat.sub_add_eq]
      · rw [List.sum_cons]
        omega

theorem exists_monthAndDay {lengths : List Nat} {days : Nat} (first : Nat) (h : days < lengths.sum) :
    ∃ month day, monthAndDay lengths first days = some (month, day) := by
  induction lengths generalizing first days with
  | nil => contradiction
  | cons length rest ih =>
    rw [monthAndDay]
    split
    · exact ⟨first, days + 1, rfl⟩
    · rw [List.sum_cons] at h
      exact ih (first + 1) (by omega)

theorem number_of_ofNumber? {n : Nat} {d : Date} (h : ofNumber? n = some d) : d.number = n := by
  obtain ⟨⟨month, day⟩, hm, h⟩ := Option.bind_eq_some_iff.mp h
  obtain ⟨passed, length, later, hs, rfl, rfl, hle, _⟩ := monthAndDay_sound hm
  obtain ⟨hyear, hmonth, hday⟩ := eq_of_of? h
  have hb := (month_of_split hs).2.1
  have hy := (yearsBefore_bounds n).1
  rw [number_eq, ← hyear, ← hmonth, ← hday, hb, Nat.add_sub_cancel, Nat.add_sub_cancel]
  omega

/-- Every day up to the last one of year 9999 has a date. -/
theorem exists_ofNumber? {n : Nat} (h : n < daysInYears 9999) : ∃ d, ofNumber? n = some d := by
  obtain ⟨hy, hn⟩ := yearsBefore_bounds n
  have hyears : yearsBefore n < 9999 := by
    rw [← Nat.not_le]
    intro hl
    have := daysInYears_le hl
    omega
  rw [daysInYears_succ, ← sum_monthLengths] at hn
  obtain ⟨month, day, hm⟩ := exists_monthAndDay 1 (Nat.sub_lt_left_of_lt_add hy hn)
  obtain ⟨passed, length, later, hs, hmonth, hday, _, hl⟩ := monthAndDay_sound hm
  obtain ⟨hpassed, _, hlength⟩ := month_of_split hs
  rw [← hmonth] at hlength
  have hd : IsDate (yearsBefore n + 1) month day := by
    refine ⟨?_, ?_, ?_, ?_, ?_, ?_⟩
    all_goals omega
  refine ⟨⟨_, month, day, hd⟩, Option.bind_eq_some_iff.mpr ⟨(month, day), hm, ?_⟩⟩
  exact of?_self ⟨_, month, day, hd⟩

/-- Reading a number as a date undoes numbering the dates, and reads nothing else. -/
theorem ofNumber?_eq_some_iff {n : Nat} {d : Date} : ofNumber? n = some d ↔ d.number = n := by
  refine ⟨number_of_ofNumber?, ?_⟩
  rintro rfl
  obtain ⟨e, he⟩ := exists_ofNumber? d.number_lt_limit
  rw [he, number_injective (number_of_ofNumber? he)]

end Date

end FilterQuery
