import FilterQuery.Value.Basic

namespace FilterQuery

inductive Datatype where
  | int
  | float
  | string
  | datetime
  | boolean
deriving DecidableEq, Repr

namespace Datatype

def name : Datatype → Text
  | int => "int"
  | float => "float"
  | string => "string"
  | datetime => "datetime"
  | boolean => "boolean"

def all : List Datatype := [int, float, string, datetime, boolean]

def ofName? (t : Text) : Option Datatype := all.find? (·.name = t)

/-- The datatype that a value names. -/
def ofValue? (v : Value) : Option Datatype := v.text?.bind ofName?

theorem ofName?_name (d : Datatype) : ofName? d.name = some d := by cases d <;> decide

/-- The datatype of a single value: strings unless it is a number, a truth value or a date. -/
def ofSample : Value → Datatype
  | .bool _ => boolean
  | .int _ => int
  | .float _ => float
  | .date _ => datetime
  | .dateTime _ => datetime
  | _ => string

/-- The datatype of a value: a collection goes by its first item. -/
def infer (v : Value) : Datatype :=
  match v.items? with
  | some (first :: _) => ofSample first
  | _ => ofSample v

end Datatype

end FilterQuery
