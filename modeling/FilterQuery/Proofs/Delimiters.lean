import FilterQuery.Proofs.Outline
import FilterQuery.Proofs.LiteralReading

namespace FilterQuery

/-- A delimiter as it stands in a text; an opening one has the word before it. -/
inductive Mark where
  | opened (word : Text)
  | closed
  | comma
deriving DecidableEq, Repr

namespace Mark

/-- The delimiters of a text in order; `word` stands before the text and after the last delimiter. -/
def scan (word : Text) : Text → List Mark
  | [] => []
  | c :: t =>
    if c = '(' then opened word :: scan [] t
    else if c = ')' then closed :: scan [] t
    else if c = ',' then comma :: scan [] t
    else scan (word ++ [c]) t

def codePoint : Mark → CodePoint
  | opened _ => '('
  | closed => ')'
  | comma => ','

theorem codePoint_scan (word t : Text) : (scan word t).map codePoint = t.filter CodePoint.isDelimiter := by
  induction t generalizing word with
  | nil => rfl
  | cons c t ih =>
    rw [scan]
    split
    · rename_i hc
      subst hc
      exact congrArg _ (ih [])
    split
    · rename_i hc
      subst hc
      exact congrArg _ (ih [])
    split
    · rename_i hc
      subst hc
      exact congrArg _ (ih [])
    · rename_i ho hc hs
      rw [ih, List.filter_cons_of_neg]
      simp [CodePoint.isDelimiter, ho, hc, hs]

theorem scan_atomic {w : Text} (hw : w.Atomic) (word t : Text) :
    scan word (w ++ t) = scan (word ++ w) t := by
  induction w generalizing word with
  | nil => rw [List.nil_append, List.append_nil]
  | cons c w ih =>
    have hc {d : CodePoint} (hd : d.isDelimiter) : c ≠ d :=
      fun he => hw.not_mem hd (he ▸ List.mem_cons_self ..)
    rw [List.cons_append, scan, if_neg (hc rfl), if_neg (hc rfl), if_neg (hc rfl),
      ih fun d hd => hw d (List.mem_cons_of_mem c hd), List.append_assoc]
    rfl

/-- The marks of arguments with commas between. -/
def join : List (List Mark) → List Mark
  | [] => []
  | ms :: rest => ms ++ rest.flatMap (comma :: ·)

/-- The marks of a compound token. -/
def call (operator : Text) (arguments : List (List Mark)) : List Mark :=
  opened operator :: (join arguments ++ [closed])

/-- A text has these marks wherever a comma or a closing parenthesis follows it. Before an opening one its end
would count as an operator word. -/
def Within (t : Text) (ms : List Mark) : Prop :=
  ∀ d rest, d = CodePoint.ofChar ',' ∨ d = CodePoint.ofChar ')' →
    scan [] (t ++ d :: rest) = ms ++ scan [] (d :: rest)

theorem within_atomic {t : Text} (ht : t.Atomic) : Within t [] := by
  intro d rest hd
  rw [scan_atomic ht]
  rcases hd with rfl | rfl <;> rfl

/-- Further arguments and the end of a call. -/
def tail (ts : List Text) (rest : Text) : Text :=
  ts.flatMap (Text.ofString "," ++ ·) ++ CodePoint.ofChar ')' :: rest

theorem Within.scan_tail {t : Text} {ms : List Mark} (h : Within t ms) (ts : List Text) (rest : Text) :
    scan [] (t ++ tail ts rest) = ms ++ scan [] (tail ts rest) := by
  cases ts with
  | nil => exact h _ _ (.inr rfl)
  | cons s ts => exact h _ _ (.inl rfl)

theorem scan_tail {args : List (Text × List Mark)} (h : ∀ a ∈ args, Within a.1 a.2) (rest : Text) :
    scan [] (tail (args.map Prod.fst) rest) =
      (args.map Prod.snd).flatMap (comma :: ·) ++ closed :: scan [] rest := by
  induction args with
  | nil => rfl
  | cons a args ih =>
    have ha := (h a (List.mem_cons_self ..)).scan_tail (args.map Prod.fst) rest
    rw [ih fun b hb => h b (List.mem_cons_of_mem a hb)] at ha
    have hc : tail ((a :: args).map Prod.fst) rest =
        CodePoint.ofChar ',' :: (a.1 ++ tail (args.map Prod.fst) rest) := by
      simp only [tail, List.map_cons, List.flatMap_cons, List.append_assoc]
      rfl
    rw [hc]
    change comma :: scan [] _ = _
    rw [ha]
    simp only [List.map_cons, List.flatMap_cons, List.append_assoc, List.cons_append]

theorem scan_join {args : List (Text × List Mark)} (h : ∀ a ∈ args, Within a.1 a.2) (rest : Text) :
    scan [] (Text.join "," (args.map Prod.fst) ++ CodePoint.ofChar ')' :: rest) =
      join (args.map Prod.snd) ++ closed :: scan [] rest := by
  cases args with
  | nil => rfl
  | cons a args =>
    have ha := (h a (List.mem_cons_self ..)).scan_tail (args.map Prod.fst) rest
    rw [scan_tail fun b hb => h b (List.mem_cons_of_mem a hb), tail] at ha
    rw [List.map_cons, Grammar.join_cons, List.append_assoc, ha]
    simp only [List.map_cons, join, List.append_assoc]

/-- A compound token puts down its own marks around those of its arguments. -/
theorem scan_call (operator : Text) (ho : operator.Atomic) {args : List (Text × List Mark)}
    (h : ∀ a ∈ args, Within a.1 a.2) (rest : Text) :
    scan [] (Token.call operator (args.map Prod.fst) ++ rest) =
      call operator (args.map Prod.snd) ++ scan [] rest := by
  have hc : Token.call operator (args.map Prod.fst) ++ rest =
      operator ++ CodePoint.ofChar '(' ::
        (Text.join "," (args.map Prod.fst) ++ CodePoint.ofChar ')' :: rest) := by
    simp only [Token.call, List.append_assoc]
    rfl
  rw [hc, scan_atomic ho, call, List.cons_append, List.append_assoc]
  exact congrArg (opened operator :: ·) (scan_join h rest)

theorem scan_call_atomic (operator : Text) (ho : operator.Atomic) {ts : List Text} (h : ∀ t ∈ ts, t.Atomic)
    (rest : Text) :
    scan [] (Token.call operator ts ++ rest) = call operator (ts.map fun _ => []) ++ scan [] rest := by
  have hw : ∀ a ∈ ts.map fun t => (t, ([] : List Mark)), Within a.1 a.2 := by
    intro a ha
    obtain ⟨t, ht, rfl⟩ := List.mem_map.mp ha
    exact within_atomic (h t ht)
  have hc := scan_call operator ho hw rest
  simp only [List.map_map, Function.comp_def, List.map_id'] at hc
  exact hc

end Mark

namespace Comparison

/-- The marks of a comparison: its operator and a comma for each literal. -/
def marks : Comparison → List Mark
  | equal _ values => Mark.call "eq" ([] :: values.map fun _ => [])
  | relate relation _ _ => Mark.call relation.word [[], []]
  | fullText _ _ => Mark.call "fts" [[], []]

theorem scan_token (c : Comparison) (rest : Text) :
    Mark.scan [] (c.token ++ rest) = c.marks ++ Mark.scan [] rest := by
  have hf (t : Text) : t.escape.Atomic := t.escapes_escape.atomic
  have hl (l : Literal) : l.token.Atomic := (Grammar.isLiteral_token l).atomic
  cases c with
  | equal field values =>
    have h : ∀ t ∈ field.escape :: values.map Literal.token, t.Atomic := by
      intro t ht
      rcases List.mem_cons.mp ht with rfl | ht
      · exact hf field
      · obtain ⟨l, _, rfl⟩ := List.mem_map.mp ht
        exact hl l
    have hc := Mark.scan_call_atomic "eq" (by decide) h rest
    rw [List.map_cons, List.map_map] at hc
    exact hc
  | relate relation field value =>
    refine Mark.scan_call_atomic relation.word (by cases relation <;> decide) ?_ rest
    intro t ht
    simp only [List.mem_cons, List.not_mem_nil, or_false] at ht
    rcases ht with rfl | rfl
    · exact hf field
    · exact hl value
  | fullText field text =>
    refine Mark.scan_call_atomic "fts" (by decide) ?_ rest
    intro t ht
    simp only [List.mem_cons, List.not_mem_nil, or_false] at ht
    rcases ht with rfl | rfl
    · exact hf field
    · exact hl (.text text)

end Comparison

namespace Predicate

mutual

def marks : Predicate → List Mark
  | compare c => c.marks
  | not p => Mark.call "not" [marks p]
  | all ps => Mark.call "and" (allMarks ps)
  | any ps => Mark.call "or" (allMarks ps)

def allMarks : List Predicate → List (List Mark)
  | [] => []
  | p :: ps => marks p :: allMarks ps

end

/-- The parts of a predicate, each with its token and its marks. -/
def written (ps : List Predicate) : List (Text × List Mark) := ps.map fun p => (p.token, p.marks)

theorem tokens_eq (ps : List Predicate) : tokens ps = (written ps).map Prod.fst := by
  induction ps with
  | nil => rfl
  | cons p ps ih => rw [tokens, ih]; rfl

theorem allMarks_eq (ps : List Predicate) : allMarks ps = (written ps).map Prod.snd := by
  induction ps with
  | nil => rfl
  | cons p ps ih => rw [allMarks, ih]; rfl

mutual

/-- No field and no literal puts a delimiter into a token. -/
theorem scan_token (p : Predicate) (rest : Text) :
    Mark.scan [] (p.token ++ rest) = p.marks ++ Mark.scan [] rest := by
  match p with
  | compare c => exact c.scan_token rest
  | not p =>
    have h : ∀ a ∈ written [p], Mark.Within a.1 a.2 := by
      intro a ha
      cases List.mem_singleton.mp ha
      intro d rest _
      exact scan_token p (d :: rest)
    exact Mark.scan_call "not" (by decide) h rest
  | all ps =>
    rw [token, marks, tokens_eq, allMarks_eq]
    exact Mark.scan_call "and" (by decide) (within_written ps) rest
  | any ps =>
    rw [token, marks, tokens_eq, allMarks_eq]
    exact Mark.scan_call "or" (by decide) (within_written ps) rest

theorem within_written (ps : List Predicate) : ∀ a ∈ written ps, Mark.Within a.1 a.2 := by
  match ps with
  | [] =>
    intro a ha
    contradiction
  | p :: ps =>
    intro a ha
    rcases List.mem_cons.mp ha with rfl | ha
    · intro d rest _
      exact scan_token p (d :: rest)
    · exact within_written ps a ha

end

theorem scan_token_self (p : Predicate) : Mark.scan [] p.token = p.marks := by
  have h := p.scan_token []
  rwa [List.append_nil, Mark.scan, List.append_nil] at h

end Predicate

namespace Operator

/-- The operator words that a rule's operator is written with. -/
def word : Operator → Text
  | relate .less => "lt"
  | relate .lessEqual => "le"
  | relate .greater => "gt"
  | relate .greaterEqual => "ge"
  | fullText => "fts"
  | _ => "eq"

theorem word_relate (relation : Relation) : word (relate relation) = relation.word := by
  cases relation <;> rfl

/-- The marks of a comparison with a number of literals, under an operator. -/
def marks (operator : Operator) (literals : Nat) : List Mark :=
  let ms := Mark.call operator.word ([] :: List.replicate literals [])
  if operator.isNegated then Mark.call "not" [ms] else ms

end Operator

namespace Rule

/-- The number of items in the list of a rule whose operator takes one. -/
def itemCount? (rule : Entries) : Option Nat := do
  let operator ← operator? rule
  if operator.takesList then ((← rule.field? valueKey).items?).map List.length else none

theorem length_of_mapM {d : Datatype} {items : List Value} {ls : List Literal}
    (h : (items.mapM fun v => (d.literal v).toOption) = some ls) : items.length = ls.length := by
  induction items generalizing ls with
  | nil =>
    cases h
    rfl
  | cons v vs ih =>
    rw [List.mapM_cons] at h
    obtain ⟨l, _, h⟩ := Option.bind_eq_some_iff.mp h
    obtain ⟨ls, hls, h⟩ := Option.bind_eq_some_iff.mp h
    cases h
    rw [List.length_cons, List.length_cons, ih hls]

theorem itemCount?_of_literals {d : Datatype} {r : Entries} {operator : Operator} {value : Value}
    {ls : List Literal} (ho : operator? r = some operator) (hm : operator.takesList = true)
    (hv : r.field? valueKey = some value) (hl : literals? d value = some ls) :
    itemCount? r = some ls.length := by
  obtain ⟨items, hi, hls⟩ := Option.bind_eq_some_iff.mp hl
  rw [← length_of_mapM hls]
  simp [itemCount?, ho, hm, hv, hi]

theorem itemCount?_of_single {r : Entries} {operator : Operator} (ho : operator? r = some operator)
    (hm : operator.takesList = false) : itemCount? r = none := by
  simp [itemCount?, ho, hm]

/-- The comparison of a rule has a literal for each item of its list, else one. -/
theorem marks_comparison {hints : Hints} {r : Entries} {operator : Operator} {c : Comparison}
    (ho : operator? r = some operator) (hc : comparison? hints r = some c) :
    c.marks = Mark.call operator.word ([] :: List.replicate ((itemCount? r).getD 1) []) := by
  obtain ⟨field, operator', _, ho', h⟩ := comparison?_eq_some hc
  cases ho.symm.trans ho'
  rcases h with ⟨hn, rfl⟩ | ⟨hn, value, d, hv, _, h⟩
  · cases operator with
    | isNull | isNotNull =>
      rw [itemCount?_of_single ho rfl]
      rfl
    | _ => contradiction
  cases operator with
  | isNull | isNotNull => contradiction
  | relate relation =>
    obtain ⟨_, _, rfl⟩ := Option.map_eq_some_iff.mp h
    rw [itemCount?_of_single ho rfl, Operator.word_relate]
    rfl
  | equal | notEqual | fullText =>
    obtain ⟨_, _, rfl⟩ := Option.map_eq_some_iff.mp h
    rw [itemCount?_of_single ho rfl]
    rfl
  | isIn | notIn =>
    obtain ⟨ls, hl, rfl⟩ := Option.map_eq_some_iff.mp h
    rw [itemCount?_of_literals ho rfl hv hl, Option.getD_some, Comparison.marks, List.map_const']
    rfl

end Rule

/-- What a description says apart from its fields, values and datatypes. -/
inductive Shape where
  | rule (operator : Option Operator) (items : Option Nat)
  | group (operator : Option GroupOperator) (parts : List Shape)
  | unlisted
  | stray

namespace Outline

mutual

def shape : Outline → Shape
  | rule r => .rule (Rule.operator? r) (Rule.itemCount? r)
  | group operator parts => .group operator (shapes parts)
  | unlisted => .unlisted
  | stray => .stray

def shapes : List Outline → List Shape
  | [] => []
  | o :: os => shape o :: shapes os

end

end Outline

namespace Shape

mutual

/-- The marks of a description's token. -/
def marks : Shape → List Mark
  | rule (some operator) items => operator.marks (items.getD 1)
  | group (some .all) parts => Mark.call "and" (allMarks parts)
  | group (some .any) parts => Mark.call "or" (allMarks parts)
  | group (some .negation) [part] => Mark.call "not" [marks part]
  | group (some .negation) parts => Mark.call "not" [Mark.call "and" (allMarks parts)]
  | _ => []

def allMarks : List Shape → List (List Mark)
  | [] => []
  | s :: ss => marks s :: allMarks ss

end

end Shape

namespace Outline

theorem marks_rule {hints : Hints} {r : Entries} {operator : Operator} {c : Comparison}
    (ho : Rule.operator? r = some operator) (hc : Rule.comparison? hints r = some c) :
    (Rule.signed operator.isNegated (.compare c)).marks = (shape (.rule r)).marks := by
  rw [shape, ho, Shape.marks, Operator.marks, ← Rule.marks_comparison ho hc]
  cases operator.isNegated <;> rfl

mutual

theorem Elaborates.marks {hints : Hints} {o : Outline} {p : Predicate} (h : Elaborates hints o p) :
    p.marks = o.shape.marks := by
  match h with
  | .rule ho hc => exact marks_rule ho hc
  | .all hs => exact congrArg (Mark.call "and") hs.allMarks
  | .any hs => exact congrArg (Mark.call "or") hs.allMarks
  | .negation h => exact congrArg (fun ms => Mark.call "not" [ms]) h.marks
  | .negations hs => exact congrArg (fun ms => Mark.call "not" [Mark.call "and" ms]) hs.allMarks

theorem ElaborateAll.allMarks {hints : Hints} {os : List Outline} {ps : List Predicate}
    (h : ElaborateAll hints os ps) : Predicate.allMarks ps = Shape.allMarks (shapes os) := by
  match h with
  | .nil => rfl
  | .cons h hs => rw [Predicate.allMarks, shapes, Shape.allMarks, h.marks, hs.allMarks]

end

end Outline

namespace Filter

/-- Descriptions of one shape have the same delimiters in their tokens, with the same words before them. -/
theorem compile_delimiters {hints hints' : Hints} {group group' : Entries} {t t' : Text}
    (hs : (Outline.ofNode group).shape = (Outline.ofNode group').shape)
    (h : (compile hints (.dict group)).1 = .ok t) (h' : (compile hints' (.dict group')).1 = .ok t') :
    t.filter CodePoint.isDelimiter = t'.filter CodePoint.isDelimiter ∧
      Mark.scan [] t = Mark.scan [] t' := by
  obtain ⟨p, rfl, hp⟩ := Outline.elaborates_of_compile h
  obtain ⟨p', rfl, hp'⟩ := Outline.elaborates_of_compile h'
  have hm : Mark.scan [] p.token = Mark.scan [] p'.token := by
    rw [p.scan_token_self, p'.scan_token_self, hp.marks, hp'.marks, hs]
  refine ⟨?_, hm⟩
  rw [← Mark.codePoint_scan [], ← Mark.codePoint_scan [], hm]

/-- Fields and values full of delimiters against plain ones, under other datatypes. -/
theorem compile_delimiters_plain :
    let group : Entries := [(.text "op", .text "NOT"), (.text "rules", .list [
      .dict [(.text "field_name", .text "a,b"), (.text "operator", .text "not in"),
        (.text "value", .list [.text "),not(", .list [.null]])],
      .dict [(.text "field_name", .text "n("), (.text "operator", .text "<"), (.text "value", .text "7")]])]
    let group' : Entries := [(.text "op", .text "NOT"), (.text "rules", .list [
      .dict [(.text "field_name", .text "a"), (.text "operator", .text "not in"),
        (.text "dtype", .text "int"), (.text "value", .tuple [.int 1, .null])],
      .dict [(.text "field_name", .text "b"), (.text "operator", .text "<"), (.text "value", .int 2)]])]
    let t : Text := "not(and(not(eq(a%2Cb,$%29%2Cnot%28,$%5BNone%5D)),lt(n%28,7)))"
    let t' : Text := "not(and(not(eq(a,1,null)),lt(b,2)))"
    (compile [(.text "n(", .int)] (.dict group)).1 = .ok t ∧ (compile [] (.dict group')).1 = .ok t' ∧
      t.filter CodePoint.isDelimiter = t'.filter CodePoint.isDelimiter ∧
      Mark.scan [] t = Mark.scan [] t' := by
  intro group group' t t'
  let s : Shape := .group (some .negation) [.rule (some .notIn) (some 2), .rule (some (.relate .less)) none]
  have hs : (Outline.ofNode group).shape = s := by with_unfolding_all rfl
  have hs' : (Outline.ofNode group').shape = s := by with_unfolding_all rfl
  have h : (compile [(.text "n(", .int)] (.dict group)).1 = .ok t := by with_unfolding_all rfl
  have h' : (compile [] (.dict group')).1 = .ok t' := by with_unfolding_all rfl
  exact ⟨h, h', compile_delimiters (hs.trans hs'.symm) h h'⟩

end Filter

end FilterQuery
