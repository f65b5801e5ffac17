import FilterQuery.Calendar.DateTime
import FilterQuery.Calendar.Field

namespace FilterQuery

/-- An instant in UTC to the millisecond, as it stands on the wire. -/
structure Timestamp where
  date : Date
  hour : Fin 24
  minute : Fin 60
  second : Fin 60
  millisecond : Fin 1000
deriving DecidableEq, Repr

namespace Timestamp
open Calendar

/-- The millisecond that a civil time falls in. -/
def ofCivil (c : CivilTime) : Timestamp :=
  ⟨c.date, c.time.hour, c.time.minute, c.time.second, ⟨c.time.microsecond.val / 1000, by omega⟩⟩

def toText (t : Timestamp) : Text :=
  field 4 t.date.year ++ "-" ++ field 2 t.date.month ++ "-" ++ field 2 t.date.day ++
    "T" ++ field 2 t.hour ++ ":" ++ field 2 t.minute ++ ":" ++ field 2 t.second ++
    "." ++ field 3 t.millisecond ++ "Z"

theorem length_toText (t : Timestamp) : t.toText.length = 24 := by
  simp only [toText, List.length_append, length_field]
  rfl

def read? (t : Text) : Option Timestamp := do
  let (year, t) ← readField? 4 t
  let (month, t) ← readField? 2 (← Text.after? '-' t)
  let (day, t) ← readField? 2 (← Text.after? '-' t)
  let (hour, t) ← readField? 2 (← Text.after? 'T' t)
  let (minute, t) ← readField? 2 (← Text.after? ':' t)
  let (second, t) ← readField? 2 (← Text.after? ':' t)
  let (millisecond, t) ← readField? 3 (← Text.after? '.' t)
  let date ← Date.of? year month day
  let time ← TimeOfDay.of? hour minute second (millisecond * 1000)
  if t = Text.ofString "Z" then return ofCivil ⟨date, time⟩ else none

end Timestamp

end FilterQuery
