import FilterQuery.Failure

namespace FilterQuery

/-- What an object holds under names that are no field; once its contents were exchanged, under every name. -/
abbrev Extras := Entries

namespace Extras

/-- Names of every object that can only be read. -/
def readOnly : List Text :=
  ["model_extra", "model_fields_set", "__fields__", "__fields_set__", "__weakref__"]

/-- The name for the kind of an object, which no value is. -/
def kindName : Text := "__class__"

/-- The name for all that an object holds, fields and others, as a dictionary. -/
def contentsName : Text := "__dict__"

def isPrivate (name : Text) : Bool := name.head? = some (CodePoint.ofChar '_')

/-- Assigns to a name that is no field of its owner. -/
def assign (e : Extras) (owner name : Text) (v : Value) : Except Failure Extras :=
  if readOnly.contains name then .error .readOnly
  else if name = kindName then .error .wrongKind
  else if name = contentsName then
    match v with
    | .dict entries => .ok entries
    | _ => .error .wrongKind
  else if isPrivate name then .ok (e.insert (.text name) v)
  else .error (.unknownField owner name)

/-- An operation of an object can be called unless its contents hold a value under its name. -/
def offers (e : Extras) (operation : Text) : Except Failure Unit :=
  if (e.field? operation).isSome then .error .wrongKind else .ok ()

theorem offers_nil (operation : Text) : offers [] operation = .ok () := rfl

end Extras

end FilterQuery
