import FilterQuery.Failure

namespace FilterQuery

/-- Fields and their datatypes, each field once. -/
abbrev Hints := List (Value × Datatype)

namespace Hints

/-- The datatypes of a dictionary, all of which must be supported; the first that is not is reported. -/
def ofEntries : Entries → Except Failure Hints
  | [] => .ok []
  | (field, datatype) :: rest =>
    match Datatype.ofValue? datatype with
    | some d => do return (field, d) :: (← ofEntries rest)
    | none => .error (.showing [field, datatype] (.unsupportedHint field datatype))

/-- The hints that pairs make as a dictionary, whose keys must be of a kind that can be one. -/
def ofPairs (pairs : List (Value × Value)) : Except Failure Hints :=
  if pairs.all (·.1.isKey) then ofEntries (Entries.ofList pairs) else .error .wrongKind

def get? (field : Value) (hints : Hints) : Option Datatype :=
  (hints.find? fun hint => hint.1.same field).map Prod.snd

/-- The hint for a field, if it is of a kind that can be a key. -/
def lookUp (field : Value) (hints : Hints) : Except Failure (Option Datatype) :=
  if field.isKey then .ok (hints.get? field) else .error .wrongKind

end Hints

end FilterQuery
