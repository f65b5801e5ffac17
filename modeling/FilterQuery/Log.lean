import FilterQuery.Text.Basic

namespace FilterQuery

inductive LogLevel where
  | debug
  | info
  | error
deriving DecidableEq, Repr

structure LogRecord where
  level : LogLevel
  message : Text
deriving DecidableEq, Repr

end FilterQuery
