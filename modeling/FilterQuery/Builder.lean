import FilterQuery.Filter.Conversion
import FilterQuery.Predicate.Basic

namespace FilterQuery

/-- What builds a token. Literals ask for a value that can be written, compound tokens for texts, whatever these
say. -/
inductive Constructor where
  | boolean
  | number
  | string
  | date
  | equal
  | relate (relation : Relation)
  | fullText
  | negation
  | all
  | any
  | order
  | sort
deriving DecidableEq, Repr

namespace Constructor

/-- A text, escaped. -/
def escapeOf (v : Value) : Except Failure Text := v.asText.map Text.escape

/-- Arguments given one by one, or all in one list or tuple. -/
def collect (arguments : List Value) : List Value :=
  match arguments with
  | [v] => v.items?.getD arguments
  | _ => arguments

def booleanToken : Value → Text
  | .null => Literal.nullToken
  | v => Literal.boolToken v.truth

/-- Numbers in their own notation, truth values by their words, and all else by its text. -/
def numberToken : Value → Except Failure Text
  | .null => .ok Literal.nullToken
  | .bool b => .ok (Literal.boolToken b)
  | .float x => .ok ((Numeral.ofFloat x).toText Numeral.wireWords)
  | v => v.plain?

def stringToken : Value → Except Failure Text
  | .null => .ok Literal.nullToken
  | v => v.asText.map Literal.textToken

def dateToken : Value → Except Failure Text
  | .null => .ok Literal.nullToken
  | v => v.toUtc.map fun civil => (Timestamp.ofCivil civil).toText

/-- A compound token whose arguments must be texts. -/
def callOf (operator : Text) (arguments : List Value) : Except Failure Text :=
  (arguments.mapM Value.asText).map (Token.call operator)

/-- A compound token of an escaped field and further arguments. -/
def fieldCall (operator : Text) (field : Value) (arguments : List Value) : Except Failure Text := do
  return Token.call operator ((← escapeOf field) :: (← arguments.mapM Value.asText))

/-- Only the value false asks for a descending order. -/
def orderToken (field ascending : Value) : Except Failure Text := do
  let field ← field.asText
  match ascending with
  | .bool false => return Order.token ⟨field, false⟩
  | _ => return Order.token ⟨field, true⟩

def token : Constructor → List Value → Except Failure Text
  | boolean, [v] => .ok (booleanToken v)
  | number, [v] => numberToken v
  | string, [v] => stringToken v
  | date, [v] => dateToken v
  | equal, field :: values => fieldCall "eq" field (collect values)
  | relate relation, [field, value] => fieldCall relation.word field [value]
  | fullText, [field, text] => do
    return Token.call "fts" [← escapeOf field, ← stringToken text]
  | negation, [v] => callOf "not" [v]
  | all, vs => callOf "and" (collect vs)
  | any, vs => callOf "or" (collect vs)
  | order, [field] => orderToken field (.bool true)
  | order, [field, ascending] => orderToken field ascending
  | sort, vs => ((collect vs).mapM Value.asText).map List.flatten
  | _, _ => .error .wrongKind

end Constructor

end FilterQuery
