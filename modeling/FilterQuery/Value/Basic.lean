import FilterQuery.Calendar.DateTime
import FilterQuery.Number.Binary64
import FilterQuery.Order

namespace FilterQuery

inductive Value where
  | null
  | bool (b : Bool)
  | int (n : Int)
  | float (x : Binary64)
  | text (t : Text)
  | list (items : List Value)
  | tuple (items : List Value)
  | dict (entries : List (Value × Value))
  | date (d : Date)
  | dateTime (d : DateTime)
  | order (o : Order)

/-- A dictionary's entries, oldest key first. -/
abbrev Entries := List (Value × Value)

namespace Value

instance : Inhabited Value := ⟨null⟩

/-- Zeros, empty collections and null count as false, all else as true. -/
def truth : Value → Bool
  | null => false
  | bool b => b
  | int n => n ≠ 0
  | float x => !x.isZero
  | text t => !t.isEmpty
  | list items => !items.isEmpty
  | tuple items => !items.isEmpty
  | dict entries => !entries.isEmpty
  | date _ => true
  | dateTime _ => true
  | order _ => true

/-- The items of a list or a tuple. -/
def items? : Value → Option (List Value)
  | list items => some items
  | tuple items => some items
  | _ => none

def text? : Value → Option Text
  | text t => some t
  | _ => none

/-- The datetime that a date, at its midnight, or a datetime is. -/
def dateTime? : Value → Option DateTime
  | date d => some (.ofDate d)
  | dateTime d => some d
  | _ => none

/-- Whether a value is the given text. -/
def isText (t : Text) : Value → Bool
  | text s => s = t
  | _ => false

mutual

/-- Collections that can change are no keys of a dictionary. -/
def isKey : Value → Bool
  | list _ => false
  | dict _ => false
  | order _ => false
  | tuple items => areKeys items
  | _ => true

def areKeys : List Value → Bool
  | [] => true
  | v :: vs => isKey v && areKeys vs

end

/-- The number that a truth value, a whole number or a float is, whole floats as whole numbers. -/
def number? : Value → Option (Int ⊕ Binary64)
  | bool b => some (.inl (if b then 1 else 0))
  | int n => some (.inl n)
  | float x => some (match x.toInt? with
      | some n => .inl n
      | none => .inr x)
  | _ => none

def sameNumber : Int ⊕ Binary64 → Int ⊕ Binary64 → Bool
  | .inl m, .inl n => m = n
  | .inr x, .inr y => x.equals y
  | _, _ => false

/-- Datetimes with offsets are the same if their instants are, those without if they show the same. -/
def sameDateTime (a b : DateTime) : Bool :=
  match a.offset, b.offset with
  | none, none => a.civil = b.civil
  | some _, some _ => a.instant = b.instant
  | _, _ => false

mutual

/-- Whether two keys are one. Numbers are compared as numbers, whatever their types. -/
def same : Value → Value → Bool
  | null, null => true
  | text s, text t => s = t
  | tuple xs, tuple ys => sameAll xs ys
  | date a, date b => a = b
  | dateTime a, dateTime b => sameDateTime a b
  | a, b =>
    match number? a, number? b with
    | some m, some n => sameNumber m n
    | _, _ => false

def sameAll : List Value → List Value → Bool
  | [], [] => true
  | x :: xs, y :: ys => same x y && sameAll xs ys
  | _, _ => false

end

end Value

namespace Entries

/-- The value of a key. -/
def get? (key : Value) (entries : Entries) : Option Value :=
  (entries.find? fun entry => entry.1.same key).map Prod.snd

def hasKey (key : Value) (entries : Entries) : Bool := entries.any fun entry => entry.1.same key

/-- A key keeps its place and its first spelling and takes the new value; a new key goes to the end. -/
def insert (key value : Value) : Entries → Entries
  | [] => [(key, value)]
  | (k, v) :: rest => if k.same key then (k, value) :: rest else (k, v) :: insert key value rest

/-- The entries of pairs in order, later values of a key over earlier ones. -/
def ofList (pairs : List (Value × Value)) : Entries :=
  pairs.foldl (fun entries pair => entries.insert pair.1 pair.2) []

/-- The value of a key that is a text. -/
def field? (name : Text) : Entries → Option Value
  | [] => none
  | (k, v) :: rest => if k.isText name then some v else field? name rest

theorem sizeOf_field? {name : Text} {entries : Entries} {v : Value}
    (h : entries.field? name = some v) : sizeOf v < sizeOf entries := by
  induction entries with
  | nil => simp [field?] at h
  | cons entry rest ih =>
    obtain ⟨k, w⟩ := entry
    simp only [field?] at h
    split at h
    · cases h
      simp only [List.cons.sizeOf_spec, Prod.mk.sizeOf_spec]
      omega
    · have := ih h
      simp only [List.cons.sizeOf_spec]
      omega

end Entries

end FilterQuery
