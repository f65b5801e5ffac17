import FilterQuery.Value.Basic

namespace FilterQuery

/-- A document. An object has all its members, repeated names included. -/
inductive Json where
  | null
  | bool (b : Bool)
  | int (n : Int)
  | float (x : Binary64)
  | text (t : Text)
  | array (items : List Json)
  | object (members : List (Text × Json))

namespace Json

instance : Inhabited Json := ⟨null⟩

mutual

/-- The value of a document. The last member of a name counts, at the place of the first. -/
def toValue : Json → Value
  | null => .null
  | bool b => .bool b
  | int n => .int n
  | float x => .float x
  | text t => .text t
  | array items => .list (itemValues items)
  | object members => .dict (Entries.ofList (memberValues members))

def itemValues : List Json → List Value
  | [] => []
  | j :: js => toValue j :: itemValues js

def memberValues : List (Text × Json) → List (Value × Value)
  | [] => []
  | (name, j) :: rest => (.text name, toValue j) :: memberValues rest

end

end Json

end FilterQuery
