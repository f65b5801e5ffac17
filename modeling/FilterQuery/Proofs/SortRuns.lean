import FilterQuery.Proofs.Escaping
import FilterQuery.Proofs.QueryString

namespace FilterQuery

namespace Order

/-- The runs of some orders after a text that is not finished: an ascending field goes on with the text, and a
descending one starts the next. -/
def runsFrom (current : Text) : List Order → List Text
  | [] => [current]
  | o :: rest => if o.ascending then runsFrom (current ++ o.field) rest else current :: runsFrom o.field rest

def runs (orders : List Order) : List Text := runsFrom [] orders

theorem runsFrom_ne_nil (current : Text) (orders : List Order) : runsFrom current orders ≠ [] := by
  induction orders generalizing current with
  | nil => exact List.cons_ne_nil _ _
  | cons o rest ih =>
    rw [runsFrom]
    split
    · exact ih _
    · exact List.cons_ne_nil _ _

theorem length_runsFrom (current : Text) (orders : List Order) :
    (runsFrom current orders).length = orders.countP (!·.ascending) + 1 := by
  induction orders generalizing current with
  | nil => rfl
  | cons o rest ih =>
    rw [runsFrom, List.countP_cons]
    split
    · rename_i h
      rw [ih, h]
      rfl
    · rename_i h
      rw [List.length_cons, ih, Bool.eq_false_iff.mpr h]
      rfl

/-- One run goes on with the field of an ascending order, and a mark parts it from that of a descending one. -/
theorem escape_specification (current : Text) (orders : List Order) :
    current.escape ++ specification orders = Text.join "!" ((runsFrom current orders).map Text.escape) := by
  induction orders generalizing current with
  | nil =>
    change current.escape ++ [] = current.escape
    exact List.append_nil _
  | cons o rest ih =>
    change current.escape ++ (o.token ++ specification rest) = _
    rw [runsFrom, token]
    split
    · have he : (current ++ o.field).escape = current.escape ++ o.field.escape := List.flatMap_append
      rw [← List.append_assoc, ← he, ih]
    · obtain ⟨run, runs, hr⟩ := List.exists_cons_of_ne_nil (runsFrom_ne_nil o.field rest)
      rw [List.cons_append, ih, List.map_cons, hr, List.map_cons]
      exact List.append_cons ..

theorem specification_eq (orders : List Order) :
    specification orders = Text.join "!" ((runs orders).map Text.escape) :=
  escape_specification [] orders

theorem mark_not_mem_escape (t : Text) : CodePoint.ofChar '!' ∉ t.escape := by
  intro h
  have ha := t.escapes_escape.atomic _ h
  revert ha
  decide

/-- The runs stand between the marks, each escaped. -/
theorem split_specification (orders : List Order) :
    Text.split '!' (specification orders) = (runs orders).map Text.escape := by
  rw [specification_eq]
  refine Text.split_join (List.map_eq_nil_iff.not.mpr (runsFrom_ne_nil [] orders)) ?_
  intro t ht
  obtain ⟨run, _, rfl⟩ := List.mem_map.mp ht
  exact mark_not_mem_escape run

theorem mapM_unescape? (ts : List Text) : (ts.map Text.escape).mapM Text.unescape? = some ts := by
  have hu : Text.unescape? ∘ Text.escape = pure := funext fun t => (Text.escape_eq_iff.mp rfl).2
  rw [List.mapM_map, hu, List.mapM_pure, List.map_id']
  rfl

/-- The orders of two specifications have the same runs exactly if the specifications are the same. -/
theorem specification_eq_iff {orders orders' : List Order} :
    specification orders = specification orders' ↔ runs orders = runs orders' := by
  constructor
  · intro h
    have hs := split_specification orders
    rw [h, split_specification] at hs
    exact (List.map_injective_iff.mpr Text.escape_injective hs).symm
  · intro h
    rw [specification_eq, specification_eq, h]

/-- The answer of the constructor of orders. -/
def call (o : Order) : Except Failure Text := Constructor.order.token [.text o.field, .bool o.ascending]

/-- The answer of the constructor of sort specifications to the tokens of some orders. -/
def sortCall (spread : Spread) (orders : List Order) : Except Failure Text := do
  Constructor.sort.token (spread.arguments (← orders.mapM call))

theorem call_eq (o : Order) : call o = .ok o.token := by
  obtain ⟨field, ascending⟩ := o
  cases ascending <;> rfl

theorem mapM_call (orders : List Order) : orders.mapM call = .ok (orders.map token) := by
  rw [funext call_eq]
  exact List.mapM_pure

theorem sortCall_eq (spread : Spread) (orders : List Order) : sortCall spread orders = .ok (specification orders) := by
  have hc : sortCall spread orders = Constructor.sort.token (spread.arguments (orders.map token)) := by
    rw [sortCall, mapM_call]
    rfl
  rw [hc, Constructor.token, collect_arguments, Expression.mapM_asText]
  exact congrArg Except.ok List.flatMap_def.symm

/-- The specification of some orders is read as their runs, one more than there are descending orders, and orders of
the same runs have the same specification however their tokens are handed over. -/
theorem sortCall_determines_runs :
    (∀ spread orders, ∃ t, sortCall spread orders = .ok t ∧
      (Text.split '!' t).mapM Text.unescape? = some (runs orders) ∧
      (runs orders).length = orders.countP (!·.ascending) + 1) ∧
    ∀ spread spread' orders orders',
      sortCall spread orders = sortCall spread' orders' ↔ runs orders = runs orders' := by
  refine ⟨?_, ?_⟩
  · intro spread orders
    refine ⟨specification orders, sortCall_eq spread orders, ?_, length_runsFrom [] orders⟩
    rw [split_specification, mapM_unescape?]
  · intro spread spread' orders orders'
    rw [sortCall_eq, sortCall_eq, Except.ok.injEq, specification_eq_iff]

/-- Where one ascending field ends and the next begins is lost. -/
example : sortCall .separate [⟨"a", true⟩, ⟨"b c", true⟩, ⟨"d", false⟩] =
    sortCall .list [⟨"ab ", true⟩, ⟨"c", true⟩, ⟨"d", false⟩] := rfl

end Order

end FilterQuery
