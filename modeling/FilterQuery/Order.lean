import FilterQuery.Text.Percent

namespace FilterQuery

structure Order where
  field : Text
  ascending : Bool
deriving DecidableEq, Repr

namespace Order

def token (o : Order) : Text :=
  if o.ascending then o.field.escape else (CodePoint.ofChar '!') :: o.field.escape

/-- The sort specification of some orders. -/
def specification (orders : List Order) : Text := orders.flatMap token

end Order

end FilterQuery
