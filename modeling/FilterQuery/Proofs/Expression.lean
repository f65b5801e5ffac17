import FilterQuery.Builder
import FilterQuery.Proofs.PredicateReading

namespace FilterQuery

/-- A call that makes a literal, on an argument of its kind or on null. -/
inductive LiteralCall where
  | null
  | boolean (b : Option Bool)
  | number (n : Option (Bool ⊕ Int ⊕ Binary64))
  | string (t : Option Text)
  | date (d : Option (Date ⊕ DateTime))

namespace LiteralCall

def ofNumber : Bool ⊕ Int ⊕ Binary64 → Value
  | .inl b => .bool b
  | .inr (.inl n) => .int n
  | .inr (.inr x) => .float x

def ofDate : Date ⊕ DateTime → Value
  | .inl d => .date d
  | .inr d => .dateTime d

/-- The token that the call answers with. -/
def token : LiteralCall → Except Failure Text
  | null => .ok Literal.nullToken
  | boolean b => Constructor.boolean.token [(b.map Value.bool).getD .null]
  | number n => Constructor.number.token [(n.map ofNumber).getD .null]
  | string t => Constructor.string.token [(t.map Value.text).getD .null]
  | date d => Constructor.date.token [(d.map ofDate).getD .null]

/-- The literal that the call makes, if it makes one: a truth value stays one among numbers, a whole number
must not be too long to write, and an instant must lie in the years 1 to 9999. -/
def literal : LiteralCall → Except Failure Literal
  | null | boolean none | number none | string none | date none => .ok .null
  | boolean (some b) | number (some (.inl b)) => .ok (.bool b)
  | number (some (.inr (.inl n))) =>
    if (Value.int n).isPrintable then .ok (.number (.ofInt n)) else .error .longNumberWritten
  | number (some (.inr (.inr x))) => .ok (.number (.ofFloat x))
  | string (some t) => .ok (.text t)
  | date (some (.inl d)) => Literal.ofDateTime (.ofDate d)
  | date (some (.inr d)) => Literal.ofDateTime d

theorem token_date (d : DateTime) :
    d.toUtc.map (fun civil => (Timestamp.ofCivil civil).toText) =
      (Literal.ofDateTime d).map Literal.token := by
  rw [Literal.ofDateTime]
  cases d.toUtc <;> rfl

theorem token_eq (c : LiteralCall) : c.token = c.literal.map Literal.token := by
  cases c with
  | null => rfl
  | boolean b => cases b <;> rfl
  | number n =>
    match n with
    | none => rfl
    | some (.inl b) => rfl
    | some (.inr (.inl n)) =>
      change (Value.int n).plain? = _
      rw [Value.plain?, literal]
      split <;> rfl
    | some (.inr (.inr x)) => rfl
  | string t => cases t <;> rfl
  | date d =>
    match d with
    | none => rfl
    | some (.inl d) => exact token_date (.ofDate d)
    | some (.inr d) => exact token_date d

end LiteralCall

/-- How several tokens are handed over. -/
inductive Spread where
  | separate
  | list
  | tuple

/-- The arguments that hand some tokens over. -/
def Spread.arguments (tokens : List Text) : Spread → List Value
  | separate => tokens.map .text
  | list => [.list (tokens.map .text)]
  | tuple => [.tuple (tokens.map .text)]

theorem collect_arguments (tokens : List Text) (s : Spread) :
    Constructor.collect (s.arguments tokens) = tokens.map .text := by
  cases s with
  | separate =>
    match tokens with
    | [] => rfl
    | [t] => rfl
    | s :: t :: rest => rfl
  | list => rfl
  | tuple => rfl

inductive Expression where
  | equal (spread : Spread) (field : Text) (values : List LiteralCall)
  | relate (relation : Relation) (field : Text) (value : LiteralCall)
  | fullText (field text : Text)
  | negation (e : Expression)
  | all (spread : Spread) (es : List Expression)
  | any (spread : Spread) (es : List Expression)

namespace Expression

mutual

/-- The token of the outermost call, whose arguments are the tokens of the inner ones. -/
def token : Expression → Except Failure Text
  | equal spread field values => do
    Constructor.equal.token (.text field :: spread.arguments (← values.mapM LiteralCall.token))
  | relate relation field value => do
    (Constructor.relate relation).token [.text field, .text (← value.token)]
  | fullText field text => Constructor.fullText.token [.text field, .text text]
  | negation e => do Constructor.negation.token [.text (← token e)]
  | all spread es => do Constructor.all.token (spread.arguments (← tokens es))
  | any spread es => do Constructor.any.token (spread.arguments (← tokens es))

def tokens : List Expression → Except Failure (List Text)
  | [] => .ok []
  | e :: es => do return (← token e) :: (← tokens es)

end

mutual

/-- The predicate with the operators, the nesting, the fields and the texts of the expression, each call that
makes a literal replaced by its literal. -/
def tree : Expression → Except Failure Predicate
  | equal _ field values => do return .compare (.equal field (← values.mapM LiteralCall.literal))
  | relate relation field value => do return .compare (.relate relation field (← value.literal))
  | fullText field text => .ok (.compare (.fullText field text))
  | negation e => do return .not (← tree e)
  | all _ es => do return .all (← trees es)
  | any _ es => do return .any (← trees es)

def trees : List Expression → Except Failure (List Predicate)
  | [] => .ok []
  | e :: es => do return (← tree e) :: (← trees es)

end

theorem tokens_literals (values : List LiteralCall) :
    values.mapM LiteralCall.token =
      (values.mapM LiteralCall.literal).map (List.map Literal.token) := by
  induction values with
  | nil => rfl
  | cons v vs ih =>
    rw [List.mapM_cons, List.mapM_cons, ih, LiteralCall.token_eq]
    cases v.literal with
    | error => rfl
    | ok l => cases vs.mapM LiteralCall.literal <;> rfl

theorem mapM_asText (tokens : List Text) : (tokens.map Value.text).mapM Value.asText = .ok tokens := by
  induction tokens with
  | nil => rfl
  | cons t ts ih =>
    rw [List.map_cons, List.mapM_cons, ih]
    rfl

theorem fieldCall_arguments (word field : Text) (spread : Spread) (tokens : List Text) :
    Constructor.fieldCall word (.text field) (Constructor.collect (spread.arguments tokens)) =
      .ok (Token.call word (field.escape :: tokens)) := by
  rw [collect_arguments, Constructor.fieldCall, mapM_asText]
  rfl

theorem callOf_arguments (word : Text) (spread : Spread) (tokens : List Text) :
    Constructor.callOf word (Constructor.collect (spread.arguments tokens)) =
      .ok (Token.call word tokens) := by
  rw [collect_arguments, Constructor.callOf, mapM_asText]
  rfl

mutual

/-- Putting tokens together loses nothing that the tree says. -/
theorem token_eq (e : Expression) : e.token = e.tree.map Predicate.token := by
  match e with
  | equal spread field values =>
    simp only [token, tree, tokens_literals]
    cases values.mapM LiteralCall.literal with
    | error => rfl
    | ok ls => exact fieldCall_arguments _ field spread _
  | relate relation field value =>
    simp only [token, tree, LiteralCall.token_eq]
    cases value.literal <;> rfl
  | fullText field text => rfl
  | negation e =>
    simp only [token, tree, token_eq e]
    cases e.tree <;> rfl
  | all spread es =>
    simp only [token, tree, tokens_eq es]
    cases trees es with
    | error => rfl
    | ok ps => exact callOf_arguments _ spread _
  | any spread es =>
    simp only [token, tree, tokens_eq es]
    cases trees es with
    | error => rfl
    | ok ps => exact callOf_arguments _ spread _

theorem tokens_eq (es : List Expression) : tokens es = (trees es).map Predicate.tokens := by
  match es with
  | [] => rfl
  | e :: es =>
    simp only [tokens, trees, token_eq e, tokens_eq es]
    cases e.tree with
    | error => rfl
    | ok p => cases trees es <;> rfl

end

theorem exists_tree_of_token {e : Expression} {t : Text} (h : e.token = .ok t) :
    ∃ p, e.tree = .ok p ∧ p.token = t ∧ Predicate.read? t = some p := by
  rw [token_eq] at h
  cases hp : e.tree with
  | error =>
    rw [hp] at h
    contradiction
  | ok p =>
    rw [hp] at h
    cases h
    exact ⟨p, rfl, rfl, Predicate.read?_token p⟩

/-- The reader takes exactly the texts of the grammar, each for one predicate, and gives back the tree of
every expression from its token; expressions with one token have one tree. -/
theorem token_uniquely_decodable :
    (∀ t p, Predicate.read? t = some p ↔ Grammar.IsPredicate t p) ∧
      ∀ (e : Expression) (t : Text), e.token = .ok t →
        (∃ p, e.tree = .ok p ∧ p.token = t ∧ Predicate.read? t = some p) ∧
          ∀ e' : Expression, e'.token = .ok t → e'.tree = e.tree := by
  refine ⟨fun t p => Predicate.read?_eq_some_iff, ?_⟩
  intro e t h
  obtain ⟨p, hp, ht, hr⟩ := exists_tree_of_token h
  refine ⟨⟨p, hp, ht, hr⟩, ?_⟩
  intro e' h'
  obtain ⟨p', hp', _, hr'⟩ := exists_tree_of_token h'
  rw [hr] at hr'
  rw [hp, hp', Option.some.inj hr']

/-- Delimiters in a field and in a text, no values, an empty field, null and a lone surrogate. -/
theorem token_uniquely_decodable_delimiters :
    let surrogate : Text := [⟨0xD800, by decide⟩]
    let e : Expression := .all .list [
      .negation (.equal .separate "a,b)" [.string (some surrogate), .number none, .boolean (some true)]),
      .equal .tuple [] [], .fullText "x" "$("]
    let t : Text := "and(not(eq(a%2Cb%29,$%ED%A0%80,null,true)),eq(),fts(x,$%24%28))"
    e.token = .ok t ∧ ∃ p, e.tree = .ok p ∧ p.token = t ∧ Predicate.read? t = some p := by
  intro surrogate e t
  have h : e.token = .ok t := rfl
  exact ⟨h, (token_uniquely_decodable.2 e t h).1⟩

end Expression

end FilterQuery
