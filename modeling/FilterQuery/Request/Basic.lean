import FilterQuery.Extras
import FilterQuery.Settings.Basic

namespace FilterQuery

/-- A new request has all parts, null where none was given. Assignments are not validated, so that later on the parts
are values of any kind, or missing. -/
structure Request where
  filter : Option Value
  sort : Option Value
  limit : Option Value
  extras : Extras

namespace Order

/-- The direction asked for, ascending if none is. -/
def validateAscending (given : Option Value) : Except (List Issue) Bool :=
  match given with
  | none => .ok true
  | some v => (Validation.bool v).mapError fun problem => [⟨["ascending"], problem⟩]

def validateField (given : Option Value) : Except (List Issue) Text :=
  match given with
  | none => .error [⟨["field"], .missing⟩]
  | some v => (Validation.text v).mapError fun problem => [⟨["field"], problem⟩]

/-- The order that a dictionary describes. -/
def validate (given : Entries) : Except (List Issue) Order :=
  match validateField (given.field? "field"), validateAscending (given.field? "ascending") with
  | .ok field, .ok ascending => .ok ⟨field, ascending⟩
  | field, ascending => .error (issuesOf field ++ issuesOf ascending)

def ofArguments (arguments : Entries) : Except Failure Order :=
  (validate arguments).mapError .invalid

end Order

namespace Request

/-- The items of what can be gone through: a sort order has its attributes, each with its name. -/
def items? : Value → Option (List Value)
  | .list items => some items
  | .tuple items => some items
  | .order o => some [.tuple [.text "field", .text o.field], .tuple [.text "ascending", .bool o.ascending]]
  | _ => none

/-- An item that is no order is reported as that and as no text either. -/
def itemIssues (issues : List Issue) : List Issue :=
  issues.map (Issue.inside ["SortField"]) ++ [⟨["str"], .notText⟩]

/-- One item of a sort list: a token, an order, or a dictionary that describes one. -/
def validateItem : Value → Except (List Issue) Value
  | .text t => .ok (.text t)
  | .order o => .ok (.order o)
  | .dict entries =>
    match Order.validate entries with
    | .ok o => .ok (.order o)
    | .error issues => .error (itemIssues issues)
  | _ => .error (itemIssues [⟨[], .notOrder⟩])

/-- All items of a sort list, counted from the given index; the issues of each carry its index. -/
def validateItems (index : Nat) : List Value → Except (List Issue) (List Value)
  | [] => .ok []
  | v :: vs =>
    match validateItem v, validateItems (index + 1) vs with
    | .ok item, .ok items => .ok (item :: items)
    | item, items =>
      .error ((issuesOf item).map (Issue.inside [Text.ofNat index]) ++ issuesOf items)

def listName : Text := "list[union[SortField,str]]"

/-- A sort that is no list is reported as no text and as no list. -/
def sortIssues (issues : List Issue) : List Issue :=
  (⟨["str"], .notText⟩ :: issues.map (Issue.inside [listName])).map (Issue.inside ["sort"])

def validateSort : Value → Except (List Issue) Value
  | .null => .ok .null
  | .text t => .ok (.text t)
  | v =>
    match items? v with
    | none => .error (sortIssues [⟨[], .notList⟩])
    | some items =>
      match validateItems 0 items with
      | .ok items => .ok (.list items)
      | .error issues => .error (sortIssues issues)

def validateFilter : Value → Except (List Issue) Value
  | .null => .ok .null
  | v =>
    match Validation.text v with
    | .ok t => .ok (.text t)
    | .error problem => .error [⟨["filter"], problem⟩]

def validateLimit : Value → Except (List Issue) Value
  | .null => .ok .null
  | v =>
    match Validation.count v with
    | .ok n => .ok (.int n)
    | .error problem => .error [⟨["limit"], problem⟩]

/-- A request with the parts given; all are checked before any issue is reported. -/
def ofArguments (arguments : Entries) : Except Failure Request :=
  let filter := validateFilter ((arguments.field? "filter").getD .null)
  let sort := validateSort ((arguments.field? "sort").getD .null)
  let limit := validateLimit ((arguments.field? "limit").getD .null)
  match filter, sort, limit with
  | .ok filter, .ok sort, .ok limit => .ok ⟨some filter, some sort, some limit, []⟩
  | _, _, _ =>
    .error (.invalid (issuesOf filter ++ issuesOf sort ++ issuesOf limit))

/-- The token of one item of a sort list; a text is taken for a token. -/
def itemToken : Value → Except Failure Text
  | .text t => .ok t
  | .order o => .ok o.token
  | _ => .error .noSuchMember

/-- The items that a sort which is neither null nor a text is gone through for; a dictionary has its keys. -/
def sortItems : Value → Except Failure (List Value)
  | .dict entries => .ok (entries.map Prod.fst)
  | v =>
    match items? v with
    | some items => .ok items
    | none => .error .wrongKind

/-- A part of a request, which is missing if the contents exchanged for others do not hold it. -/
def held : Option Value → Except Failure Value
  | some v => .ok v
  | none => .error .noSuchMember

/-- The sort specification that a value of any kind stands for, unless it is null. -/
def specification : Value → Except Failure (Option Text)
  | .null => .ok none
  | .text t => .ok (some t)
  | v => do return some (← (← sortItems v).mapM itemToken).flatten

/-- The sort specification, if the request has one. -/
def sortToken (r : Request) : Except Failure (Option Text) := do
  r.extras.offers "sort_token"
  specification (← held r.sort)

/-- A part of the query string under its parameter's name, if the part is there. -/
def part (s : Settings) (p : Parameter) : Option Text → List Text
  | none => []
  | some t => [s.name p ++ "=" ++ t]

/-- The text of a part that is not null. -/
def partText : Value → Except Failure (Option Text)
  | .null => .ok none
  | v => v.plain?.map some

/-- The parts that are there, in the order filter, sort, limit, with ampersands between. -/
def queryString (r : Request) (s : Settings) : Except Failure Text := do
  r.extras.offers "to_query_string"
  let filter ← partText (← held r.filter)
  let sort ← r.sortToken
  let limit ← partText (← held r.limit)
  return Text.join "&" (part s .filter filter ++ part s .sort sort ++ part s .limit limit)

/-- A URL with a query string, if there is any, after the URL's own if it has one. -/
def appendTo (base query : Text) : Text :=
  if query.isEmpty then base
  else if base.contains (CodePoint.ofChar '?') then base ++ "&" ++ query
  else base ++ "?" ++ query

def url (r : Request) (base : Text) (s : Settings) : Except Failure Text := do
  r.extras.offers "to_url"
  return appendTo base (← r.queryString s)

/-- The request whose parts are among what an object holds; those that are not are missing. -/
def ofExtras (extras : Extras) : Request :=
  ⟨extras.field? "filter", extras.field? "sort", extras.field? "limit", extras⟩

/-- The request with a value of any kind for a part, for another name, or for all that it holds. -/
def assign (r : Request) (member : Text) (v : Value) : Except Failure Request := do
  if member = Text.ofString "filter" then return { r with filter := some v }
  else if member = Text.ofString "sort" then return { r with sort := some v }
  else if member = Text.ofString "limit" then return { r with limit := some v }
  else
    let extras ← r.extras.assign "QueryRequest" member v
    if member = Extras.contentsName then return ofExtras extras
    else return { r with extras := extras }

/-- Puts a value of any kind at the end of the sort, which must be a list. -/
def appendSort (r : Request) (v : Value) : Except Failure Request :=
  match r.sort with
  | some (.list items) => .ok { r with sort := some (.list (items ++ [v])) }
  | _ => .error .noSuchMember

end Request

end FilterQuery
