namespace FilterQuery

namespace Calendar

def isLeap (year : Nat) : Bool := year % 4 = 0 && (year % 100 ≠ 0 || year % 400 = 0)

def monthLengths (year : Nat) : List Nat :=
  [31, if isLeap year then 29 else 28, 31, 30, 31, 30, 31, 31, 30, 31, 30, 31]

/-- No month but 1 to 12 has days. -/
def daysInMonth (year month : Nat) : Nat :=
  if month = 0 then 0 else (monthLengths year).getD (month - 1) 0

/-- Days in the given number of years from year 1 on. -/
def daysInYears (count : Nat) : Nat := 365 * count + count / 4 - count / 100 + count / 400

def IsDate (year month day : Nat) : Prop :=
  1 ≤ year ∧ year ≤ 9999 ∧ 1 ≤ month ∧ month ≤ 12 ∧ 1 ≤ day ∧ day ≤ daysInMonth year month

instance (year month day : Nat) : Decidable (IsDate year month day) := by
  unfold IsDate; infer_instance

end Calendar

/-- A day of the Gregorian calendar in the years 1 to 9999. -/
structure Date where
  year : Nat
  month : Nat
  day : Nat
  isDate : Calendar.IsDate year month day
deriving DecidableEq, Repr

namespace Date
open Calendar

def of? (year month day : Nat) : Option Date :=
  if h : IsDate year month day then some ⟨year, month, day, h⟩ else none

theorem of?_self (d : Date) : of? d.year d.month d.day = some d := by
  rw [of?, dif_pos d.isDate]

/-- Days since 0001-01-01. -/
def number (d : Date) : Nat :=
  daysInYears (d.year - 1) + ((monthLengths d.year).take (d.month - 1)).foldl (· + ·) 0 + (d.day - 1)

/-- The whole years before a day: a mean year has 146097 / 400 days, and that guess is off by one at most. -/
def yearsBefore (number : Nat) : Nat :=
  let guess := number * 400 / 146097
  if number < daysInYears guess then guess - 1
  else if daysInYears (guess + 1) ≤ number then guess + 1
  else guess

/-- The month and the day of the month, counting months from the given one through their lengths. -/
def monthAndDay : List Nat → Nat → Nat → Option (Nat × Nat)
  | [], _, _ => none
  | length :: rest, month, days =>
    if days < length then some (month, days + 1) else monthAndDay rest (month + 1) (days - length)

def ofNumber? (number : Nat) : Option Date := do
  let years := yearsBefore number
  let (month, day) ← monthAndDay (monthLengths (years + 1)) 1 (number - daysInYears years)
  of? (years + 1) month day

/-- The Monday that a year's first week begins with: the one nearest to the first of January. -/
def firstMonday (year : Nat) : Nat :=
  let newYear := daysInYears (year - 1)
  if 3 < newYear % 7 then newYear + 7 - newYear % 7 else newYear - newYear % 7

/-- A year has a week 53 if it begins on a Thursday, or on a Wednesday and is a leap year. -/
def weeksIn (year : Nat) : Nat :=
  let weekday := daysInYears (year - 1) % 7
  if weekday = 3 ∨ (weekday = 2 ∧ isLeap year) then 53 else 52

/-- The date of a day, 1 for Monday to 7, in a week of a year. -/
def ofWeek? (year week day : Nat) : Option Date :=
  if 1 ≤ year ∧ 1 ≤ week ∧ week ≤ weeksIn year ∧ 1 ≤ day ∧ day ≤ 7 then
    ofNumber? (firstMonday year + (week - 1) * 7 + (day - 1))
  else none

end Date

end FilterQuery
