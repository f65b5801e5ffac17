import FilterQuery.Text.Basic

namespace FilterQuery.Token

def call (operator : Text) (arguments : List Text) : Text :=
  operator ++ "(" ++ Text.join "," arguments ++ ")"

end FilterQuery.Token
