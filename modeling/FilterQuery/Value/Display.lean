import FilterQuery.Calendar.Iso
import FilterQuery.Number.Layout
import FilterQuery.Number.Reader
import FilterQuery.Text.Quoted
import FilterQuery.Value.Basic

namespace FilterQuery

/-- A whole number in decimal. -/
def Text.ofInt (n : Int) : Text := (Numeral.ofInt n).toText Numeral.wireWords

def Text.ofNat (n : Nat) : Text := (Digits.ofNat n).toText

namespace Value

def wordOfBool (b : Bool) : Text := if b then "True" else "False"

/-- The parts of a span of time that are not zero, each with its name. -/
def spanParts (parts : List (String × Int)) : List Text :=
  (parts.filter (·.2 ≠ 0)).map fun (name, n) => name ++ "=" ++ Text.ofInt n

/-- A span of time in days, which may be negative, and seconds and microseconds, which are not. -/
def quotedSpan (microseconds : Int) : Text :=
  let rest := microseconds % Int.ofNat Calendar.dayLength
  let parts := spanParts [("days", microseconds / Int.ofNat Calendar.dayLength),
    ("seconds", rest / 1000000), ("microseconds", rest % 1000000)]
  "datetime.timedelta(" ++ (if parts = [] then Text.ofString "0" else Text.join ", " parts) ++ ")"

def quotedOffset (o : Offset) : Text :=
  if o.microseconds = 0 then "datetime.timezone.utc"
  else "datetime.timezone(" ++ quotedSpan o.microseconds ++ ")"

def dateParts (d : Date) : List Text := [d.year, d.month, d.day].map Text.ofNat

/-- Hours and minutes; seconds if they or the microseconds are not zero, microseconds if they are not. -/
def timeParts (t : TimeOfDay) : List Text :=
  ([t.hour.val, t.minute.val] ++
    (if t.microsecond.val ≠ 0 then [t.second.val, t.microsecond.val]
      else if t.second.val ≠ 0 then [t.second.val] else [])).map Text.ofNat

def quotedDate (d : Date) : Text := "datetime.date(" ++ Text.join ", " (dateParts d) ++ ")"

def quotedDateTime (d : DateTime) : Text :=
  let offset : List Text := match d.offset with
    | none => []
    | some o => ["tzinfo=" ++ quotedOffset o]
  "datetime.datetime(" ++
    Text.join ", " (dateParts d.civil.date ++ timeParts d.civil.time ++ offset) ++ ")"

/-- The attributes of a sort order, with a separator between them. -/
def attributes (separator : Text) (o : Order) : Text :=
  "field=" ++ o.field.quoted ++ separator ++ "ascending=" ++ wordOfBool o.ascending

mutual

def quoted : Value → Text
  | null => "None"
  | bool b => wordOfBool b
  | int n => Text.ofInt n
  | float x => (Numeral.ofBinary64 x).toText Numeral.shownWords
  | text t => t.quoted
  | list items => "[" ++ Text.join ", " (quotedItems items) ++ "]"
  | tuple items =>
    "(" ++ Text.join ", " (quotedItems items) ++ (if items.length = 1 then Text.ofString ",)" else ")")
  | dict entries => "\x7b" ++ Text.join ", " (quotedEntries entries) ++ "\x7d"
  | date d => quotedDate d
  | dateTime d => quotedDateTime d
  | order o => "SortField(" ++ attributes ", " o ++ ")"

def quotedItems : List Value → List Text
  | [] => []
  | v :: vs => quoted v :: quotedItems vs

def quotedEntries : List (Value × Value) → List Text
  | [] => []
  | (k, v) :: rest => (quoted k ++ ": " ++ quoted v) :: quotedEntries rest

end

/-- A value as text: what it says, not what it is. -/
def plain : Value → Text
  | text t => t
  | date d => d.toIso
  | dateTime d => d.toIso " "
  | order o => attributes " " o
  | v => v.quoted

mutual

/-- No whole number in the value has too many digits to be written. -/
def isPrintable : Value → Bool
  | int n => Digits.count n.natAbs ≤ Number.digitLimit
  | list items => arePrintable items
  | tuple items => arePrintable items
  | dict entries => areEntriesPrintable entries
  | _ => true

def arePrintable : List Value → Bool
  | [] => true
  | v :: vs => isPrintable v && arePrintable vs

def areEntriesPrintable : List (Value × Value) → Bool
  | [] => true
  | (k, v) :: rest => isPrintable k && isPrintable v && areEntriesPrintable rest

end

end Value

end FilterQuery
