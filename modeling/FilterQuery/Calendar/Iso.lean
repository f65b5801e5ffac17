import FilterQuery.Calendar.DateTime
import FilterQuery.Calendar.Field

namespace FilterQuery

open Calendar

def Date.toIso (d : Date) : Text :=
  field 4 d.year ++ "-" ++ field 2 d.month ++ "-" ++ field 2 d.day

/-- Six digits after a point, unless there is nothing to say. -/
def Calendar.fractionText (microsecond : Nat) : Text :=
  if microsecond = 0 then [] else "." ++ field 6 microsecond

def TimeOfDay.toIso (t : TimeOfDay) : Text :=
  field 2 t.hour ++ ":" ++ field 2 t.minute ++ ":" ++ field 2 t.second ++ fractionText t.microsecond

/-- A sign, hours and minutes; the seconds only if the offset has some. -/
def Offset.toIso (o : Offset) : Text :=
  let size := o.microseconds.natAbs
  let sign : Text := if o.microseconds < 0 then "-" else "+"
  let seconds : Text := if size % 60000000 = 0 then []
    else ":" ++ field 2 (size / 1000000 % 60) ++ fractionText (size % 1000000)
  sign ++ field 2 (size / 3600000000) ++ ":" ++ field 2 (size / 60000000 % 60) ++ seconds

namespace DateTime

/-- The text of a datetime, with the given text between date and time. -/
def toIso (separator : Text) (d : DateTime) : Text :=
  d.civil.date.toIso ++ separator ++ d.civil.time.toIso ++ ((d.offset.map Offset.toIso).getD [])

end DateTime

namespace Iso

/-- The code point at a place of a text. -/
def isAt (t : Text) (index : Nat) (c : CodePoint) : Bool := t[index]? = some c

/-- Where the date ends. A week date in the basic form is ambiguous when a digit separates it from the
time: times have an even count of digits, which tells whether a day of the week was given. After an extended
week a dash begins a day of the week, unless what would follow the day is a digit. -/
def dateLength (t : Text) : Nat :=
  if isAt t 4 '-' then
    if isAt t 5 'W' then
      if isAt t 8 '-' && !(t[10]?.any CodePoint.isAsciiDigit) then 10 else 8
    else 10
  else if isAt t 4 'W' then
    let digits := ((t.drop 7).takeWhile CodePoint.isAsciiDigit).length
    if digits = 0 then 7
    else if digits = 1 then 8
    else if digits % 2 = 1 then 7 else 8
  else 8

/-- The week and the day of the week, Monday if it is left out. -/
def readWeekDate? (year : Nat) (extended : Bool) (t : Text) : Option Date := do
  let (week, t) ← readField? 2 t
  if t = [] then Date.ofWeek? year week 1
  else
    let (day, t) ← readField? 1 (← if extended then Text.after? '-' t else some t)
    if t = [] then Date.ofWeek? year week day else none

def readMonthDate? (year : Nat) (extended : Bool) (t : Text) : Option Date := do
  let (month, t) ← readField? 2 t
  let (day, t) ← readField? 2 (← if extended then Text.after? '-' t else some t)
  if t = [] then Date.of? year month day else none

/-- The date that a whole text is. -/
def readDate? (t : Text) : Option Date := do
  let (year, t) ← readField? 4 t
  let extended := t.head? = some '-'
  let t := if extended then t.drop 1 else t
  if t.head? = some (CodePoint.ofChar 'W') then readWeekDate? year extended (t.drop 1)
  else readMonthDate? year extended t

/-- Hours, minutes, seconds and microseconds as read, of any size. -/
structure Clock where
  hour : Nat
  minute : Nat
  second : Nat
  microsecond : Nat

/-- Seconds, microseconds left aside. -/
def Clock.seconds (c : Clock) : Nat := (c.hour * 60 + c.minute) * 60 + c.second

/-- A text ends where nothing is left or a NUL stands, whatever follows that. -/
def isEnd (left : Text) : Bool := left.head?.all (·.val = 0)

/-- What comes after two digits of a clock. -/
inductive Break where
  | stop (left : Text)
  | part (rest : Text)
  | fraction (rest : Text)

/-- A clock stops at its end and at a last code point, if that is ASCII. Else a fraction of the part before
follows a point or a comma; the next part follows at once, in a clock with colons after one. -/
def break? (colons : Bool) : Text → Option Break
  | [] => some (.stop [])
  | c :: rest =>
    if rest = [] ∧ c.isAscii then some (.stop [c])
    else if c = '.' ∨ c = ',' then some (.fraction rest)
    else if !colons then some (.part (c :: rest))
    else if c = ':' then some (.part rest)
    else none

/-- Microseconds in up to six digits, and what is left after the digits past the sixth. -/
def readFraction? (t : Text) : Option (Nat × Text) :=
  (readField? 6 ((t ++ List.replicate 6 (CodePoint.ofDigit 0)).take 6)).map fun p =>
    (p.1, (t.drop 6).dropWhile CodePoint.isAsciiDigit)

/-- Up to so many parts of a clock, the microseconds and what is left. One more part is a fraction. -/
def readParts? (colons : Bool) (count : Nat) (t : Text) : Option (List Nat × Nat × Text) :=
  match break? colons t, count with
  | none, _ => none
  | some (.stop left), _ => some ([], 0, left)
  | some (.part rest), count + 1 => do
    let (n, rest) ← readField? 2 rest
    let (ns, microsecond, left) ← readParts? colons count rest
    return (n :: ns, microsecond, left)
  | some (.part rest), 0 | some (.fraction rest), _ =>
    (readFraction? rest).map fun (microsecond, left) => ([], microsecond, left)

/-- The clock that a text begins with and what is left of the text: hours, perhaps minutes, perhaps seconds,
with colons throughout or without any, and perhaps a fraction, which counts as one of a second. -/
def readClock? (t : Text) : Option (Clock × Text) := do
  let (hour, t) ← readField? 2 t
  let (parts, microsecond, left) ← readParts? (t.head? = some (CodePoint.ofChar ':')) 2 t
  return (⟨hour, parts.getD 0 0, parts.getD 1 0, microsecond⟩, left)

/-- The offset that a sign and a whole text name. One of less than a second is no offset from UTC. -/
def readOffset? (sign : CodePoint) (t : Text) : Option Offset :=
  if sign = 'Z' then if isEnd t then some .utc else none
  else do
    let (clock, left) ← readClock? t
    let size := Int.ofNat (clock.seconds * 1000000 + clock.microsecond)
    if !isEnd left then none
    else if clock.seconds = 0 then some .utc
    else Offset.of? (if sign = '-' then -size else size)

/-- The time of day that a clock shows, if its parts are in range. -/
def Clock.time? (c : Clock) : Option TimeOfDay := TimeOfDay.of? c.hour c.minute c.second c.microsecond

/-- The code points that begin an offset. -/
def isSign (c : CodePoint) : Bool := c = '+' || c = '-' || c = 'Z'

/-- A time of day and the offset that its sign begins. What a clock leaves in front of a sign does not matter. -/
def readTime? (t : Text) : Option (TimeOfDay × Option Offset) := do
  let (clock, left) ← readClock? (t.takeWhile (!isSign ·))
  let time ← clock.time?
  match t.dropWhile (!isSign ·) with
  | [] => if isEnd left then some (time, none) else none
  | sign :: rest => return (time, some (← readOffset? sign rest))

/-- Where a separator can stand. -/
def separatorPlaces : List Nat := [7, 8, 10]

/-- A surrogate is a separator at best: the first one where a separator can stand counts as a T, and a text
with another one names no datetime. -/
def withoutSurrogates? (t : Text) : Option Text :=
  let t := match separatorPlaces.find? fun place => t[place]?.any CodePoint.isSurrogate with
    | some place => t.set place 'T'
    | none => t
  if t.any CodePoint.isSurrogate then none else some t

/-- The datetime that a whole text is: a calendar date or a week date, in the extended or the basic form, and
perhaps any code point and a time. A date alone means its midnight. -/
def readDateTime? (t : Text) : Option DateTime := do
  let t ← withoutSurrogates? t
  let date ← readDate? (t.take (dateLength t))
  match t.drop (dateLength t) with
  | [] => return .ofDate date
  | _ :: rest =>
    let (time, offset) ← readTime? rest
    return ⟨⟨date, time⟩, offset⟩

example : (readDateTime? "2020-W01-3 12:30.5+01").map (DateTime.toIso "T") =
    some (Text.ofString "2020-01-01T12:30:00.500000+01:00") := by decide +kernel

end Iso

end FilterQuery
