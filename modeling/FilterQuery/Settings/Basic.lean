import FilterQuery.Failure
import FilterQuery.Validation.Field

namespace FilterQuery

inductive Parameter where
  | filter
  | sort
  | limit
deriving DecidableEq, Repr

namespace Parameter

def all : List Parameter := [filter, sort, limit]

/-- The key under which settings give a parameter's name. -/
def member : Parameter → Text
  | filter => "filter_query_name"
  | sort => "sort_query_name"
  | limit => "limit_query_name"

def ofMember? (t : Text) : Option Parameter := all.find? (·.member = t)

def defaultName : Parameter → Text
  | filter => "f"
  | sort => "s"
  | limit => "l"

end Parameter

structure Settings where
  filterName : Text
  sortName : Text
  limitName : Text
deriving DecidableEq, Repr

namespace Settings

def name (s : Settings) : Parameter → Text
  | .filter => s.filterName
  | .sort => s.sortName
  | .limit => s.limitName

def setName (s : Settings) (p : Parameter) (t : Text) : Settings :=
  match p with
  | .filter => { s with filterName := t }
  | .sort => { s with sortName := t }
  | .limit => { s with limitName := t }

/-- The settings with all three default names. -/
def default : Settings :=
  ⟨Parameter.filter.defaultName, Parameter.sort.defaultName, Parameter.limit.defaultName⟩

/-- A required name of at least one code point. -/
def validateName (p : Parameter) (given : Option Value) : Except (List Issue) Text :=
  match given with
  | none => .error [⟨[p.member], .missing⟩]
  | some v => (Validation.nonemptyText v).mapError fun problem => [⟨[p.member], problem⟩]

/-- Settings from the names given, all three of which are checked before any issue is reported. -/
def validate (given : Parameter → Option Value) : Except Failure Settings :=
  let filter := validateName .filter (given .filter)
  let sort := validateName .sort (given .sort)
  let limit := validateName .limit (given .limit)
  match filter, sort, limit with
  | .ok filter, .ok sort, .ok limit => .ok ⟨filter, sort, limit⟩
  | _, _, _ => .error (.invalid (issuesOf filter ++ issuesOf sort ++ issuesOf limit))

def ofArguments (arguments : Entries) : Except Failure Settings :=
  validate fun p => arguments.field? p.member

/-- A setting as messages show it. -/
def shownName (s : Settings) (p : Parameter) : Text := p.member ++ "=" ++ (s.name p).quoted

def shown (s : Settings) : Text := Text.join " " (Parameter.all.map s.shownName)

end Settings

end FilterQuery
