import FilterQuery.Predicate.Basic

namespace FilterQuery

/-- The pieces of a text between separators, at least one. -/
def Text.split (separator : CodePoint) : Text → List Text
  | [] => [[]]
  | c :: rest =>
    if c = separator then [] :: Text.split separator rest
    else match Text.split separator rest with
    | [] => [[c]]
    | piece :: pieces => (c :: piece) :: pieces

namespace Relation

def ofWord? (word : Text) : Option Relation :=
  [less, lessEqual, greater, greaterEqual].find? (·.word = word)

end Relation

namespace Comparison

/-- The comparison of an operator word and its arguments. -/
def ofArguments? (word : Text) (arguments : List Text) : Option Comparison :=
  if word = Text.ofString "eq" then
    match arguments with
    | [] => none
    | field :: values => do
      return equal (← Text.unescape? field) (← values.mapM Literal.read?)
  else if word = Text.ofString "fts" then
    match arguments with
    | [field, text] => do
      return fullText (← Text.unescape? field) (← Text.unescape? (← Text.after? '$' text))
    | _ => none
  else
    match Relation.ofWord? word, arguments with
    | some relation, [field, value] => do
      return relate relation (← Text.unescape? field) (← Literal.read? value)
    | _, _ => none

end Comparison

namespace Predicate

/-- A comparison whose operator word has been read, up to its closing parenthesis. -/
def readComparison? (word : Text) (t : Text) : Option (Predicate × Text) := do
  let body := t.takeWhile (· ≠ CodePoint.ofChar ')')
  let rest ← Text.after? ')' (t.dropWhile (· ≠ CodePoint.ofChar ')'))
  if body.contains (CodePoint.ofChar '(') then none
  else return (compare (← Comparison.ofArguments? word (Text.split ',' body)), rest)

mutual

/-- A predicate at the front of a text, and the rest. Of three calls, one inside the other, at
least one takes a parenthesis or a comma, so fuel beyond three times the length of the text is never used
up. -/
def readFront? : Nat → Text → Option (Predicate × Text)
  | 0, _ => none
  | fuel + 1, t => do
    let word := t.takeWhile (· ≠ CodePoint.ofChar '(')
    let rest ← Text.after? '(' (t.dropWhile (· ≠ CodePoint.ofChar '('))
    if word = Text.ofString "not" then
      let (p, rest) ← readFront? fuel rest
      return (.not p, ← Text.after? ')' rest)
    else if word = Text.ofString "and" then
      let (ps, rest) ← readParts? fuel rest
      return (.all ps, rest)
    else if word = Text.ofString "or" then
      let (ps, rest) ← readParts? fuel rest
      return (.any ps, rest)
    else readComparison? word rest

/-- Parts up to the closing parenthesis, perhaps none. -/
def readParts? : Nat → Text → Option (List Predicate × Text)
  | 0, _ => none
  | fuel + 1, t =>
    match Text.after? ')' t with
    | some rest => some ([], rest)
    | none => readSomeParts? fuel t

/-- Parts up to the closing parenthesis, at least one. -/
def readSomeParts? : Nat → Text → Option (List Predicate × Text)
  | 0, _ => none
  | fuel + 1, t => do
    let (p, rest) ← readFront? fuel t
    match Text.after? ',' rest with
    | none => return ([p], ← Text.after? ')' rest)
    | some rest =>
      let (ps, rest) ← readSomeParts? fuel rest
      return (p :: ps, rest)

end

/-- The predicate that a whole text is. -/
def read? (t : Text) : Option Predicate :=
  match readFront? (3 * t.length + 3) t with
  | some (p, []) => some p
  | _ => none

end Predicate

end FilterQuery
