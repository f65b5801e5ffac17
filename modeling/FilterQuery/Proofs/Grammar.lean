import FilterQuery.Predicate.Basic
import FilterQuery.Proofs.Timestamp

namespace FilterQuery.Grammar

/-- literal := "null" | "true" | "false" | number | "$" escaped-string | iso8601-date -/
inductive IsLiteral : Text → Literal → Prop
  | null : IsLiteral "null" .null
  | true : IsLiteral "true" (.bool true)
  | false : IsLiteral "false" (.bool false)
  | number (n : Numeral) : IsLiteral (n.toText Numeral.wireWords) (.number n)
  | text {e t : Text} (he : e.Escapes t) : IsLiteral ("$" ++ e) (.text t)
  | instant (i : Timestamp) : IsLiteral i.toText (.instant i)

/-- ("," literal)* -/
inductive AreLiterals : Text → List Literal → Prop
  | nil : AreLiterals [] []
  | cons {t rest : Text} {l : Literal} {ls : List Literal} (h : IsLiteral t l)
      (hs : AreLiterals rest ls) : AreLiterals ("," ++ t ++ rest) (l :: ls)

/-- "lt(" | "le(" | "gt(" | "ge(" -/
inductive Opens : Text → Relation → Prop
  | less : Opens "lt(" .less
  | lessEqual : Opens "le(" .lessEqual
  | greater : Opens "gt(" .greater
  | greaterEqual : Opens "ge(" .greaterEqual

mutual

/-- predicate := "not(" predicate ")" | "and(" predicate-list ")" | "or(" predicate-list ")"
| "eq(" field ("," literal)* ")" | ("lt(" | "le(" | "gt(" | "ge(") field "," literal ")"
| "fts(" field ",$" escaped-string ")" -/
inductive IsPredicate : Text → Predicate → Prop
  | not {t : Text} {p : Predicate} (h : IsPredicate t p) : IsPredicate ("not(" ++ t ++ ")") (.not p)
  | all {t : Text} {ps : List Predicate} (h : IsList t ps) : IsPredicate ("and(" ++ t ++ ")") (.all ps)
  | any {t : Text} {ps : List Predicate} (h : IsList t ps) : IsPredicate ("or(" ++ t ++ ")") (.any ps)
  | equal {e t field : Text} {ls : List Literal} (he : e.Escapes field) (h : AreLiterals t ls) :
      IsPredicate ("eq(" ++ e ++ t ++ ")") (.compare (.equal field ls))
  | relate {word e t field : Text} {relation : Relation} {l : Literal} (hw : Opens word relation)
      (he : e.Escapes field) (h : IsLiteral t l) :
      IsPredicate (word ++ e ++ "," ++ t ++ ")") (.compare (.relate relation field l))
  | fullText {e s field text : Text} (he : e.Escapes field) (hs : s.Escapes text) :
      IsPredicate ("fts(" ++ e ++ ",$" ++ s ++ ")") (.compare (.fullText field text))

/-- predicate-list := predicate ("," predicate)*, or nothing -/
inductive IsList : Text → List Predicate → Prop
  | nil : IsList [] []
  | one {t : Text} {p : Predicate} (h : IsPredicate t p) : IsList t [p]
  | cons {t rest : Text} {p q : Predicate} {qs : List Predicate} (h : IsPredicate t p)
      (hs : IsList rest (q :: qs)) : IsList (t ++ "," ++ rest) (p :: q :: qs)

end

theorem isLiteral_token (l : Literal) : IsLiteral l.token l := by
  cases l with
  | null => exact .null
  | bool b => cases b <;> constructor
  | number n => exact .number n
  | text t => exact .text t.escapes_escape
  | instant i => exact .instant i

theorem areLiterals_tokens (ls : List Literal) :
    AreLiterals (ls.flatMap fun l => Text.ofString "," ++ l.token) ls := by
  induction ls with
  | nil => exact .nil
  | cons l ls ih => exact .cons (isLiteral_token l) ih

/-- Tokens joined by commas, the first one apart. -/
theorem join_cons (t : Text) (ts : List Text) :
    Text.join "," (t :: ts) = t ++ ts.flatMap (Text.ofString "," ++ ·) := by
  induction ts generalizing t with
  | nil => simp [Text.join]
  | cons s ts ih => simp [Text.join, ih]

/-- A relation opens with its word. -/
theorem opens_iff {word : Text} {relation : Relation} : Opens word relation ↔ word = relation.word ++ "(" := by
  constructor
  · rintro (_ | _ | _ | _) <;> rfl
  · rintro rfl
    cases relation <;> constructor

theorem opens_word (relation : Relation) : Opens (relation.word ++ "(") relation := opens_iff.mpr rfl

theorem isPredicate_compare (c : Comparison) : IsPredicate c.token (.compare c) := by
  cases c with
  | equal field values =>
    have h := IsPredicate.equal field.escapes_escape (areLiterals_tokens values)
    have ht : (Comparison.equal field values).token =
        "eq(" ++ field.escape ++ (values.flatMap fun l => Text.ofString "," ++ l.token) ++ ")" := by
      simp only [Comparison.token, Token.call, join_cons, List.flatMap_map, List.append_assoc]
      rfl
    rw [ht]
    exact h
  | relate relation field value =>
    have h := IsPredicate.relate (opens_word relation) field.escapes_escape (isLiteral_token value)
    have ht : (Comparison.relate relation field value).token =
        relation.word ++ "(" ++ field.escape ++ "," ++ value.token ++ ")" := by
      simp only [Comparison.token, Token.call, Text.join, List.append_assoc]
    rw [ht]
    exact h
  | fullText field text =>
    have h := IsPredicate.fullText field.escapes_escape text.escapes_escape
    have ht : (Comparison.fullText field text).token =
        "fts(" ++ field.escape ++ ",$" ++ text.escape ++ ")" := by
      simp only [Comparison.token, Token.call, Text.join, List.append_assoc]
      rfl
    rw [ht]
    exact h

mutual

theorem isPredicate_token (p : Predicate) : IsPredicate p.token p := by
  cases p with
  | compare c => exact isPredicate_compare c
  | not p => exact IsPredicate.not (isPredicate_token p)
  | all ps => exact IsPredicate.all (isList_tokens ps)
  | any ps => exact IsPredicate.any (isList_tokens ps)

theorem isList_tokens (ps : List Predicate) : IsList (Text.join "," (Predicate.tokens ps)) ps := by
  match ps with
  | [] => exact .nil
  | [p] => exact .one (isPredicate_token p)
  | p :: q :: qs => exact .cons (isPredicate_token p) (isList_tokens (q :: qs))

end

end FilterQuery.Grammar
