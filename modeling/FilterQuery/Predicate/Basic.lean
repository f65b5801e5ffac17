import FilterQuery.Literal
import FilterQuery.Token

namespace FilterQuery

inductive Relation where
  | less
  | lessEqual
  | greater
  | greaterEqual
deriving DecidableEq, Repr

def Relation.word : Relation → Text
  | less => "lt"
  | lessEqual => "le"
  | greater => "gt"
  | greaterEqual => "ge"

/-- A field compared with literals: equal to one of them, in a relation to one, or matching a text. -/
inductive Comparison where
  | equal (field : Text) (values : List Literal)
  | relate (relation : Relation) (field : Text) (value : Literal)
  | fullText (field text : Text)
deriving DecidableEq, Repr

namespace Comparison

def field : Comparison → Text
  | equal field _ => field
  | relate _ field _ => field
  | fullText field _ => field

def token : Comparison → Text
  | equal field values => Token.call "eq" (field.escape :: values.map Literal.token)
  | relate relation field value => Token.call relation.word [field.escape, value.token]
  | fullText field text => Token.call "fts" [field.escape, Literal.textToken text]

end Comparison

inductive Predicate where
  | compare (c : Comparison)
  | not (p : Predicate)
  | all (ps : List Predicate)
  | any (ps : List Predicate)

namespace Predicate

mutual

def token : Predicate → Text
  | compare c => c.token
  | not p => Token.call "not" [token p]
  | all ps => Token.call "and" (tokens ps)
  | any ps => Token.call "or" (tokens ps)

def tokens : List Predicate → List Text
  | [] => []
  | p :: ps => token p :: tokens ps

end

mutual

/-- Whether a predicate holds, given which comparisons do. -/
def holds (truth : Comparison → Bool) : Predicate → Bool
  | compare c => truth c
  | not p => !holds truth p
  | all ps => allHold truth ps
  | any ps => anyHolds truth ps

def allHold (truth : Comparison → Bool) : List Predicate → Bool
  | [] => true
  | p :: ps => holds truth p && allHold truth ps

def anyHolds (truth : Comparison → Bool) : List Predicate → Bool
  | [] => false
  | p :: ps => holds truth p || anyHolds truth ps

end

mutual

/-- The comparisons from left to right. -/
def comparisons : Predicate → List Comparison
  | compare c => [c]
  | not p => comparisons p
  | all ps => allComparisons ps
  | any ps => allComparisons ps

def allComparisons : List Predicate → List Comparison
  | [] => []
  | p :: ps => comparisons p ++ allComparisons ps

end

end Predicate

end FilterQuery
