import FilterQuery.Calendar.Date

namespace FilterQuery

structure TimeOfDay where
  hour : Fin 24
  minute : Fin 60
  second : Fin 60
  microsecond : Fin 1000000
deriving DecidableEq, Repr

namespace TimeOfDay

def midnight : TimeOfDay := ⟨0, 0, 0, 0⟩

def of? (hour minute second microsecond : Nat) : Option TimeOfDay :=
  if h : hour < 24 ∧ minute < 60 ∧ second < 60 ∧ microsecond < 1000000 then
    some ⟨⟨hour, h.1⟩, ⟨minute, h.2.1⟩, ⟨second, h.2.2.1⟩, ⟨microsecond, h.2.2.2⟩⟩
  else none

/-- Microseconds since midnight. -/
def number (t : TimeOfDay) : Nat :=
  ((t.hour.val * 60 + t.minute.val) * 60 + t.second.val) * 1000000 + t.microsecond.val

/-- The time so many microseconds after midnight, days left aside. -/
def ofNumber (n : Nat) : TimeOfDay :=
  ⟨⟨n / 3600000000 % 24, by omega⟩, ⟨n / 60000000 % 60, by omega⟩, ⟨n / 1000000 % 60, by omega⟩,
    ⟨n % 1000000, by omega⟩⟩

end TimeOfDay

/-- Microseconds in a day. -/
def Calendar.dayLength : Nat := 86400000000

/-- A date and a time of day, in whatever place. -/
structure CivilTime where
  date : Date
  time : TimeOfDay
deriving DecidableEq, Repr

namespace CivilTime

/-- Microseconds since the start of year 1. -/
def number (c : CivilTime) : Nat := c.date.number * Calendar.dayLength + c.time.number

def ofNumber? (n : Int) : Option CivilTime :=
  if n < 0 then none
  else (Date.ofNumber? (n.toNat / Calendar.dayLength)).map
    (⟨·, TimeOfDay.ofNumber (n.toNat % Calendar.dayLength)⟩)

end CivilTime

/-- A distance from UTC of less than a day either way. -/
structure Offset where
  microseconds : Int
  bounded : -Int.ofNat Calendar.dayLength < microseconds ∧ microseconds < Int.ofNat Calendar.dayLength
deriving DecidableEq, Repr

namespace Offset

def utc : Offset := ⟨0, by decide⟩

def of? (microseconds : Int) : Option Offset :=
  if h : -Int.ofNat Calendar.dayLength < microseconds ∧ microseconds < Int.ofNat Calendar.dayLength then
    some ⟨microseconds, h⟩
  else none

end Offset

/-- A civil time, of a place with a known offset or of UTC itself if none is given. -/
structure DateTime where
  civil : CivilTime
  offset : Option Offset
deriving DecidableEq, Repr

namespace DateTime

/-- The start of a day. -/
def ofDate (d : Date) : DateTime := ⟨⟨d, .midnight⟩, none⟩

/-- Microseconds from the start of year 1 in UTC to the instant meant. -/
def instant (d : DateTime) : Int :=
  d.civil.number - (d.offset.map Offset.microseconds).getD 0

/-- The civil time of the instant in UTC. -/
def toUtc? (d : DateTime) : Option CivilTime :=
  match d.offset with
  | none => some d.civil
  | some _ => CivilTime.ofNumber? d.instant

end DateTime

end FilterQuery
