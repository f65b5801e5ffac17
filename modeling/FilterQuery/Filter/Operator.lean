import FilterQuery.Predicate.Basic
import FilterQuery.Value.Basic

namespace FilterQuery

/-- How a rule compares its field with its value. -/
inductive Operator where
  | equal
  | notEqual
  | fullText
  | isIn
  | notIn
  | isNull
  | isNotNull
  | relate (relation : Relation)
deriving DecidableEq, Repr

namespace Operator

def spelling : Operator → Text
  | equal => "=="
  | notEqual => "!="
  | fullText => "fts"
  | isIn => "in"
  | notIn => "not in"
  | isNull => "is null"
  | isNotNull => "is not null"
  | relate .less => "<"
  | relate .lessEqual => "<="
  | relate .greater => ">"
  | relate .greaterEqual => ">="

def all : List Operator :=
  [equal, notEqual, fullText, isIn, notIn, isNull, isNotNull, relate .less, relate .lessEqual,
    relate .greater, relate .greaterEqual]

def ofSpelling? (t : Text) : Option Operator := all.find? (·.spelling = t)

def ofValue? (v : Value) : Option Operator := v.text?.bind ofSpelling?

/-- Operators that ask for the opposite of an equality. -/
def isNegated : Operator → Bool
  | notEqual | notIn | isNotNull => true
  | _ => false

/-- Operators that take a list of values, and no other value. -/
def takesList : Operator → Bool
  | isIn | notIn => true
  | _ => false

/-- Operators that take no value. -/
def isNullTest : Operator → Bool
  | isNull | isNotNull => true
  | _ => false

end Operator

/-- How a group joins its parts. -/
inductive GroupOperator where
  | all
  | any
  | negation
deriving DecidableEq, Repr

namespace GroupOperator

def spelling : GroupOperator → Text
  | all => "AND"
  | any => "OR"
  | negation => "NOT"

def ofValue? (v : Value) : Option GroupOperator :=
  v.text?.bind fun t => [all, any, negation].find? (·.spelling = t)

end GroupOperator

end FilterQuery
