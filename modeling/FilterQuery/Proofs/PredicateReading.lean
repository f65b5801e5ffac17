import FilterQuery.Predicate.Reader
import FilterQuery.Proofs.LiteralReading

namespace FilterQuery

open Grammar

namespace Text

theorem split_of_not_mem {c : CodePoint} {t : Text} (h : c ∉ t) : split c t = [t] := by
  induction t with
  | nil => rfl
  | cons d t ih =>
    simp only [List.mem_cons, not_or] at h
    rw [split, if_neg (fun hd => h.1 hd.symm), ih h.2]

theorem split_append {c : CodePoint} {t : Text} (h : c ∉ t) (rest : Text) :
    split c (t ++ c :: rest) = t :: split c rest := by
  induction t with
  | nil => rw [List.nil_append, split, if_pos rfl]
  | cons d t ih =>
    simp only [List.mem_cons, not_or] at h
    rw [List.cons_append, split, if_neg (fun hd => h.1 hd.symm), ih h.2]

theorem join_split (t : Text) : ∃ piece pieces, split ',' t = piece :: pieces ∧
    t = piece ++ pieces.flatMap (Text.ofString "," ++ ·) := by
  induction t with
  | nil => exact ⟨[], [], rfl, rfl⟩
  | cons c t ih =>
    obtain ⟨piece, pieces, hs, ht⟩ := ih
    rw [split]
    split
    · rename_i hc
      refine ⟨[], split ',' t, rfl, ?_⟩
      rw [hs, hc, List.flatMap_cons, List.append_assoc, ← ht]
      rfl
    · rw [hs]
      exact ⟨c :: piece, pieces, rfl, congrArg (c :: ·) ht⟩

/-- The text in front of a mark that does not occur in it, and what the mark begins. -/
theorem cut_mark {c : CodePoint} {t : Text} (h : c ∉ t) (rest : Text) :
    (t ++ c :: rest).takeWhile (· ≠ c) = t ∧ (t ++ c :: rest).dropWhile (· ≠ c) = c :: rest := by
  have ha : ∀ d ∈ t, decide (d ≠ c) = true := by
    intro d hd
    exact decide_eq_true (fun he => h (he ▸ hd))
  rw [List.takeWhile_append_of_pos ha, List.dropWhile_append_of_pos ha]
  simp

theorem eq_of_cut {c : CodePoint} {t rest : Text} (h : after? c (t.dropWhile (· ≠ c)) = some rest) :
    t = t.takeWhile (· ≠ c) ++ c :: rest := by
  rw [← after?_eq_some_iff.mp h]
  exact (List.takeWhile_append_dropWhile ..).symm

end Text

namespace Grammar

/-- The pieces between commas are the field and the literals. -/
theorem AreLiterals.split {t : Text} {ls : List Literal} (h : AreLiterals t ls) {e : Text}
    (he : e.Atomic) : ∃ pieces, Text.split ',' (e ++ t) = e :: pieces ∧
      pieces.mapM Literal.read? = some ls := by
  induction h generalizing e with
  | nil =>
    rw [List.append_nil]
    exact ⟨[], Text.split_of_not_mem (he.not_mem (by decide)), rfl⟩
  | @cons t rest l ls hl _ ih =>
    obtain ⟨pieces, hs, hm⟩ := ih hl.atomic
    refine ⟨t :: pieces, ?_, ?_⟩
    · rw [← hs, ← Text.split_append (he.not_mem (by decide))]
      rfl
    · rw [List.mapM_cons, Literal.read?_of_isLiteral hl, hm]
      rfl

theorem areLiterals_of_mapM {pieces : List Text} {ls : List Literal}
    (h : pieces.mapM Literal.read? = some ls) :
    AreLiterals (pieces.flatMap (Text.ofString "," ++ ·)) ls := by
  induction pieces generalizing ls with
  | nil =>
    cases h
    exact .nil
  | cons piece pieces ih =>
    simp only [List.mapM_cons, Option.bind_eq_bind, Option.bind_eq_some_iff, Option.pure_def,
      Option.some.injEq] at h
    obtain ⟨l, hl, ls, hls, rfl⟩ := h
    exact .cons (Literal.isLiteral_of_read? hl) (ih hls)

theorem AreLiterals.not_mem {t : Text} {ls : List Literal} (h : AreLiterals t ls) {c : CodePoint}
    (hd : c.isDelimiter) (hc : c ≠ CodePoint.ofChar ',') : c ∉ t := by
  induction h with
  | nil => simp
  | cons hl _ ih =>
    intro hm
    rcases List.mem_append.mp hm with hm | hm
    · rcases List.mem_append.mp hm with hm | hm
      · exact hc (List.mem_singleton.mp hm)
      · exact hl.atomic.not_mem hd hm
    · exact ih hm

end Grammar

namespace Predicate

theorem readComparison?_body {word body rest : Text} {c : Comparison}
    (ho : CodePoint.ofChar '(' ∉ body) (hc : CodePoint.ofChar ')' ∉ body)
    (h : Comparison.ofArguments? word (Text.split ',' body) = some c) :
    readComparison? word (body ++ CodePoint.ofChar ')' :: rest) = some (compare c, rest) := by
  obtain ⟨ht, hd⟩ := Text.cut_mark hc rest
  have hn : body.contains (CodePoint.ofChar '(') = false := by
    simpa using ho
  simp only [readComparison?, ht, hd, Text.after?_cons, hn, h, Option.bind_eq_bind, Option.bind_some,
    Bool.false_eq_true, if_false, Option.pure_def]

/-- The words of groups, which the reader looks for before it tries a comparison. -/
def groupWords : List Text := ["not", "and", "or"]

theorem readFront?_word (fuel : Nat) (rest : Text) {word : Text} (hw : CodePoint.ofChar '(' ∉ word) :
    readFront? (fuel + 1) (word ++ CodePoint.ofChar '(' :: rest) =
      if word = Text.ofString "not" then do
        let (p, rest) ← readFront? fuel rest
        return (.not p, ← Text.after? ')' rest)
      else if word = Text.ofString "and" then do
        let (ps, rest) ← readParts? fuel rest
        return (.all ps, rest)
      else if word = Text.ofString "or" then do
        let (ps, rest) ← readParts? fuel rest
        return (.any ps, rest)
      else readComparison? word rest := by
  obtain ⟨ht, hd⟩ := Text.cut_mark hw rest
  simp only [readFront?, ht, hd, Text.after?_cons, Option.bind_eq_bind, Option.bind_some]

theorem readFront?_comparison (fuel : Nat) (rest : Text) {word body : Text} {c : Comparison}
    (hg : word ∉ groupWords) (hw : CodePoint.ofChar '(' ∉ word) (ho : CodePoint.ofChar '(' ∉ body)
    (hc : CodePoint.ofChar ')' ∉ body)
    (h : Comparison.ofArguments? word (Text.split ',' body) = some c) :
    readFront? (fuel + 1) (word ++ CodePoint.ofChar '(' :: (body ++ CodePoint.ofChar ')' :: rest)) =
      some (compare c, rest) := by
  simp only [groupWords, List.mem_cons, List.not_mem_nil, or_false, not_or] at hg
  rw [readFront?_word fuel _ hw, if_neg hg.1, if_neg hg.2.1, if_neg hg.2.2, readComparison?_body ho hc h]

theorem readFront?_equal (fuel : Nat) {e t field : Text} {ls : List Literal} (he : e.Escapes field)
    (h : AreLiterals t ls) (rest : Text) :
    readFront? (fuel + 1) ("eq(" ++ e ++ t ++ ")" ++ rest) = some (compare (.equal field ls), rest) := by
  obtain ⟨pieces, hs, hm⟩ := h.split he.atomic
  have hp : ∀ {c : CodePoint}, c.isDelimiter → c ≠ CodePoint.ofChar ',' → c ∉ e ++ t := by
    intro c hd hc hm
    rcases List.mem_append.mp hm with hm | hm
    · exact he.atomic.not_mem hd hm
    · exact h.not_mem hd hc hm
  have hr : Comparison.ofArguments? "eq" (Text.split ',' (e ++ t)) = some (.equal field ls) := by
    rw [hs, Comparison.ofArguments?, if_pos rfl]
    simp only [Text.unescape?_eq_some_iff.mpr he, hm, Option.bind_eq_bind, Option.bind_some, Option.pure_def]
  have hf := readFront?_comparison fuel rest (by decide) (by decide)
    (hp (by decide) (by decide)) (hp (by decide) (by decide)) hr
  simp only [List.append_assoc] at hf ⊢
  exact hf

theorem split_pair {e t : Text} (he : e.Atomic) (ht : t.Atomic) :
    Text.split ',' (e ++ CodePoint.ofChar ',' :: t) = [e, t] := by
  rw [Text.split_append (he.not_mem (by decide)), Text.split_of_not_mem (ht.not_mem (by decide))]

theorem not_mem_pair {e t : Text} (he : e.Atomic) (ht : t.Atomic) {c : CodePoint}
    (hd : c.isDelimiter) (hc : c ≠ CodePoint.ofChar ',') : c ∉ e ++ CodePoint.ofChar ',' :: t := by
  intro hm
  rcases List.mem_append.mp hm with hm | hm
  · exact he.not_mem hd hm
  rcases List.mem_cons.mp hm with rfl | hm
  · exact hc rfl
  · exact ht.not_mem hd hm

theorem readFront?_relate (fuel : Nat) (relation : Relation) {e t field : Text} {l : Literal}
    (he : e.Escapes field) (h : IsLiteral t l) (rest : Text) :
    readFront? (fuel + 1) (relation.word ++ "(" ++ e ++ "," ++ t ++ ")" ++ rest) =
      some (compare (.relate relation field l), rest) := by
  have hr : Comparison.ofArguments? relation.word (Text.split ',' (e ++ CodePoint.ofChar ',' :: t)) =
      some (.relate relation field l) := by
    have hw : relation.word ≠ Text.ofString "eq" ∧ relation.word ≠ Text.ofString "fts" ∧
        Relation.ofWord? relation.word = some relation := by cases relation <;> decide
    rw [split_pair he.atomic h.atomic, Comparison.ofArguments?, if_neg hw.1, if_neg hw.2.1, hw.2.2]
    simp only [Text.unescape?_eq_some_iff.mpr he, Literal.read?_of_isLiteral h, Option.bind_eq_bind,
      Option.bind_some, Option.pure_def]
  have hf := readFront?_comparison fuel rest (by cases relation <;> decide)
    (by cases relation <;> decide) (not_mem_pair he.atomic h.atomic (by decide) (by decide))
    (not_mem_pair he.atomic h.atomic (by decide) (by decide)) hr
  simp only [List.append_assoc] at hf ⊢
  exact hf

theorem readFront?_fullText (fuel : Nat) {e s field text : Text} (he : e.Escapes field)
    (hs : s.Escapes text) (rest : Text) :
    readFront? (fuel + 1) ("fts(" ++ e ++ ",$" ++ s ++ ")" ++ rest) =
      some (compare (.fullText field text), rest) := by
  have ht : Text.Atomic (CodePoint.ofChar '$' :: s) := .cons (by decide) hs.atomic
  have hr : Comparison.ofArguments? "fts"
      (Text.split ',' (e ++ CodePoint.ofChar ',' :: CodePoint.ofChar '$' :: s)) =
      some (.fullText field text) := by
    rw [split_pair he.atomic ht, Comparison.ofArguments?, if_neg (by decide), if_pos rfl]
    simp only [Text.unescape?_eq_some_iff.mpr he, Text.unescape?_eq_some_iff.mpr hs, Text.after?_cons,
      Option.bind_eq_bind, Option.bind_some, Option.pure_def]
  have hf := readFront?_comparison fuel rest (by decide) (by decide)
    (not_mem_pair he.atomic ht (by decide) (by decide))
    (not_mem_pair he.atomic ht (by decide) (by decide)) hr
  simp only [List.append_assoc] at hf ⊢
  exact hf

theorem readFront?_not {fuel : Nat} {t rest : Text} {p : Predicate}
    (h : readFront? fuel (t ++ CodePoint.ofChar ')' :: rest) = some (p, CodePoint.ofChar ')' :: rest)) :
    readFront? (fuel + 1) ("not(" ++ t ++ ")" ++ rest) = some (.not p, rest) := by
  have hf := readFront?_word fuel (t ++ CodePoint.ofChar ')' :: rest)
    (by decide : CodePoint.ofChar '(' ∉ Text.ofString "not")
  rw [if_pos rfl, h] at hf
  simp only [List.append_assoc]
  exact hf

theorem readFront?_all {fuel : Nat} {t rest : Text} {ps : List Predicate}
    (h : readParts? fuel (t ++ CodePoint.ofChar ')' :: rest) = some (ps, rest)) :
    readFront? (fuel + 1) ("and(" ++ t ++ ")" ++ rest) = some (.all ps, rest) := by
  have hf := readFront?_word fuel (t ++ CodePoint.ofChar ')' :: rest)
    (by decide : CodePoint.ofChar '(' ∉ Text.ofString "and")
  rw [if_neg (by decide), if_pos rfl, h] at hf
  simp only [List.append_assoc]
  exact hf

theorem readFront?_any {fuel : Nat} {t rest : Text} {ps : List Predicate}
    (h : readParts? fuel (t ++ CodePoint.ofChar ')' :: rest) = some (ps, rest)) :
    readFront? (fuel + 1) ("or(" ++ t ++ ")" ++ rest) = some (.any ps, rest) := by
  have hf := readFront?_word fuel (t ++ CodePoint.ofChar ')' :: rest)
    (by decide : CodePoint.ofChar '(' ∉ Text.ofString "or")
  rw [if_neg (by decide), if_neg (by decide), if_pos rfl, h] at hf
  simp only [List.append_assoc]
  exact hf

theorem readParts?_nil (fuel : Nat) (rest : Text) :
    readParts? (fuel + 1) (CodePoint.ofChar ')' :: rest) = some ([], rest) := by
  simp only [readParts?, Text.after?_cons]

/-- A predicate begins with a letter, so neither with a comma nor with a closing parenthesis. -/
theorem exists_cons_of_isPredicate {t : Text} {p : Predicate} (h : IsPredicate t p) :
    ∃ c body, t = c :: body ∧ c.isDelimiter = false := by
  cases h with
  | relate relation _ _ => cases relation <;> exact ⟨_, _, rfl, by decide⟩
  | _ => exact ⟨_, _, rfl, by decide⟩

theorem after?_isPredicate {t : Text} {p : Predicate} (h : IsPredicate t p) {c : CodePoint}
    (hc : c.isDelimiter) (rest : Text) : Text.after? c (t ++ rest) = none := by
  obtain ⟨d, body, rfl, hd⟩ := exists_cons_of_isPredicate h
  have hne : d ≠ c := by
    rintro rfl
    rw [hd] at hc
    contradiction
  rw [List.cons_append, Text.after?, if_neg hne]

theorem length_enclosed (word : String) (t : Text) :
    (Text.ofString word ++ t ++ Text.ofString ")").length = (Text.ofString word).length + t.length + 1 := by
  rw [List.length_append, List.length_append]
  rfl

theorem readParts?_some (fuel : Nat) {t : Text} {p : Predicate} (h : IsPredicate t p) (rest : Text) :
    readParts? (fuel + 1) (t ++ rest) = readSomeParts? fuel (t ++ rest) := by
  rw [readParts?, after?_isPredicate h (by decide)]

theorem readSomeParts?_one {fuel : Nat} {t rest : Text} {p : Predicate}
    (h : readFront? fuel (t ++ CodePoint.ofChar ')' :: rest) = some (p, CodePoint.ofChar ')' :: rest)) :
    readSomeParts? (fuel + 1) (t ++ CodePoint.ofChar ')' :: rest) = some ([p], rest) := by
  have hn : Text.after? ',' (CodePoint.ofChar ')' :: rest) = none := by
    rw [Text.after?, if_neg (by decide)]
  simp only [readSomeParts?, h, hn, Text.after?_cons, Option.bind_eq_bind, Option.bind_some, Option.pure_def]

theorem readSomeParts?_cons {fuel : Nat} {t after rest : Text} {p : Predicate} {ps : List Predicate}
    (h : readFront? fuel (t ++ CodePoint.ofChar ',' :: after) = some (p, CodePoint.ofChar ',' :: after))
    (hs : readSomeParts? fuel after = some (ps, rest)) :
    readSomeParts? (fuel + 1) (t ++ CodePoint.ofChar ',' :: after) = some (p :: ps, rest) := by
  simp only [readSomeParts?, h, hs, Text.after?_cons, Option.bind_eq_bind, Option.bind_some, Option.pure_def]

mutual

-- A list hands its text on twice before a code point of it is read, so each code point needs three steps.
theorem readFront?_of_isPredicate {t : Text} {p : Predicate} (h : IsPredicate t p) (rest : Text)
    (fuel : Nat) (hf : 3 * t.length ≤ fuel) : readFront? fuel (t ++ rest) = some (p, rest) := by
  match fuel with
  | 0 =>
    obtain ⟨c, body, rfl, _⟩ := exists_cons_of_isPredicate h
    simp at hf
  | fuel + 1 =>
    match h with
    | .not h =>
      have hl : (Text.ofString "not(").length = 4 := by decide
      rw [length_enclosed] at hf
      exact readFront?_not (readFront?_of_isPredicate h _ fuel (by omega))
    | .all h =>
      have hl : (Text.ofString "and(").length = 4 := by decide
      rw [length_enclosed] at hf
      exact readFront?_all (readParts?_of_isList h rest fuel (by omega))
    | .any h =>
      have hl : (Text.ofString "or(").length = 3 := by decide
      rw [length_enclosed] at hf
      exact readFront?_any (readParts?_of_isList h rest fuel (by omega))
    | .equal he h => exact readFront?_equal fuel he h rest
    | @IsPredicate.relate _ _ _ _ relation _ hw he h =>
      rw [opens_iff.mp hw]
      exact readFront?_relate fuel relation he h rest
    | .fullText he h => exact readFront?_fullText fuel he h rest

theorem readParts?_of_isList {t : Text} {ps : List Predicate} (h : IsList t ps) (rest : Text)
    (fuel : Nat) (hf : 3 * t.length + 2 ≤ fuel) :
    readParts? fuel (t ++ CodePoint.ofChar ')' :: rest) = some (ps, rest) := by
  match fuel with
  | 0 => omega
  | fuel + 1 =>
    match h with
    | .nil => exact readParts?_nil fuel rest
    | .one h =>
      rw [readParts?_some fuel h]
      exact readSomeParts?_of_isList (.one h) rest fuel (by omega)
    | .cons h hs =>
      rw [List.append_assoc, List.append_assoc, readParts?_some fuel h, ← List.append_assoc,
        ← List.append_assoc]
      exact readSomeParts?_of_isList (.cons h hs) rest fuel (by omega)

theorem readSomeParts?_of_isList {t : Text} {p : Predicate} {ps : List Predicate} (h : IsList t (p :: ps))
    (rest : Text) (fuel : Nat) (hf : 3 * t.length + 1 ≤ fuel) :
    readSomeParts? fuel (t ++ CodePoint.ofChar ')' :: rest) = some (p :: ps, rest) := by
  match fuel with
  | 0 => omega
  | fuel + 1 =>
    match h with
    | .one h =>
      exact readSomeParts?_one (readFront?_of_isPredicate h _ fuel (by omega))
    | .cons h hs =>
      rw [List.length_append, List.length_append] at hf
      have hc : (Text.ofString ",").length = 1 := by decide
      have hr := readSomeParts?_of_isList hs rest fuel (by omega)
      rw [List.append_assoc, List.append_assoc]
      exact readSomeParts?_cons (readFront?_of_isPredicate h _ fuel (by omega)) hr

end

theorem ofWord?_sound {word : Text} {relation : Relation} (h : Relation.ofWord? word = some relation) :
    relation.word = word := by
  have hp := List.find?_some h
  exact of_decide_eq_true hp

/-- A comparison that is read has the word, the field and the literals of its production. -/
theorem isPredicate_of_ofArguments? {word body : Text} {c : Comparison}
    (h : Comparison.ofArguments? word (Text.split ',' body) = some c) :
    IsPredicate (word ++ "(" ++ body ++ ")") (compare c) := by
  obtain ⟨piece, pieces, hs, hb⟩ := Text.join_split body
  rw [hs, Comparison.ofArguments?.eq_def] at h
  split at h
  · rename_i hw
    simp only [Option.bind_eq_bind, Option.bind_eq_some_iff, Option.pure_def, Option.some.injEq] at h
    obtain ⟨field, hf, ls, hl, rfl⟩ := h
    have hp := IsPredicate.equal (Text.unescape?_eq_some_iff.mp hf) (areLiterals_of_mapM hl)
    rw [hw, hb]
    simp only [List.append_assoc] at hp ⊢
    exact hp
  split at h
  · rename_i hw
    split at h
    · rename_i e s he
      simp only [Option.bind_eq_bind, Option.bind_eq_some_iff, Option.pure_def, Option.some.injEq] at h
      obtain ⟨field, hf, after, ha, text, ht, rfl⟩ := h
      have hp := IsPredicate.fullText (Text.unescape?_eq_some_iff.mp hf) (Text.unescape?_eq_some_iff.mp ht)
      cases he
      rw [hw, hb, Text.after?_eq_some_iff.mp ha, List.flatMap_singleton]
      simp only [List.append_assoc] at hp ⊢
      exact hp
    · contradiction
  · split at h
    · rename_i relation e s hr he
      simp only [Option.bind_eq_bind, Option.bind_eq_some_iff, Option.pure_def, Option.some.injEq] at h
      obtain ⟨field, hf, l, hl, rfl⟩ := h
      have hp := IsPredicate.relate (opens_word relation) (Text.unescape?_eq_some_iff.mp hf)
        (Literal.isLiteral_of_read? hl)
      cases he
      rw [← ofWord?_sound hr, hb, List.flatMap_singleton]
      simp only [List.append_assoc] at hp ⊢
      exact hp
    · contradiction

theorem readComparison?_sound {word t rest : Text} {p : Predicate}
    (h : readComparison? word t = some (p, rest)) :
    ∃ body, t = body ++ CodePoint.ofChar ')' :: rest ∧ IsPredicate (word ++ "(" ++ body ++ ")") p := by
  simp only [readComparison?, Option.bind_eq_bind, Option.bind_eq_some_iff] at h
  obtain ⟨after, ha, h⟩ := h
  split at h
  · contradiction
  · simp only [Option.bind_eq_some_iff, Option.pure_def, Option.some.injEq, Prod.mk.injEq] at h
    obtain ⟨c, hc, rfl, rfl⟩ := h
    exact ⟨_, Text.eq_of_cut ha, isPredicate_of_ofArguments? hc⟩

/-- What the three readers promise with some fuel. -/
structure Sound (fuel : Nat) : Prop where
  front : ∀ {t rest p}, readFront? fuel t = some (p, rest) → ∃ s, t = s ++ rest ∧ IsPredicate s p
  parts : ∀ {t rest ps}, readParts? fuel t = some (ps, rest) →
    ∃ s, t = s ++ CodePoint.ofChar ')' :: rest ∧ IsList s ps
  someParts : ∀ {t rest ps}, readSomeParts? fuel t = some (ps, rest) →
    ∃ s q qs, t = s ++ CodePoint.ofChar ')' :: rest ∧ ps = q :: qs ∧ IsList s ps

theorem Sound.front_step {fuel : Nat} (hs : Sound fuel) {t rest : Text} {p : Predicate}
    (h : readFront? (fuel + 1) t = some (p, rest)) : ∃ s, t = s ++ rest ∧ IsPredicate s p := by
  simp only [readFront?, Option.bind_eq_bind, Option.bind_eq_some_iff] at h
  obtain ⟨after, ha, h⟩ := h
  have ht := Text.eq_of_cut ha
  split at h
  · rename_i hw
    simp only [Option.bind_eq_some_iff, Option.pure_def, Option.some.injEq, Prod.mk.injEq] at h
    obtain ⟨⟨q, r⟩, hq, r', hr, rfl, rfl⟩ := h
    obtain ⟨s, rfl, hp⟩ := hs.front hq
    have hr : r = CodePoint.ofChar ')' :: r' := Text.after?_eq_some_iff.mp hr
    refine ⟨_, ?_, .not hp⟩
    rw [ht, hw, hr]
    simp only [List.append_assoc]
    rfl
  split at h
  · rename_i hw
    simp only [Option.bind_eq_some_iff, Option.pure_def, Option.some.injEq, Prod.mk.injEq] at h
    obtain ⟨⟨qs, r⟩, hq, rfl, rfl⟩ := h
    obtain ⟨s, rfl, hp⟩ := hs.parts hq
    refine ⟨_, ?_, .all hp⟩
    rw [ht, hw]
    simp only [List.append_assoc]
    rfl
  split at h
  · rename_i hw
    simp only [Option.bind_eq_some_iff, Option.pure_def, Option.some.injEq, Prod.mk.injEq] at h
    obtain ⟨⟨qs, r⟩, hq, rfl, rfl⟩ := h
    obtain ⟨s, rfl, hp⟩ := hs.parts hq
    refine ⟨_, ?_, .any hp⟩
    rw [ht, hw]
    simp only [List.append_assoc]
    rfl
  · obtain ⟨body, rfl, hp⟩ := readComparison?_sound h
    refine ⟨_, ?_, hp⟩
    refine ht.trans ?_
    simp only [List.append_assoc]
    rfl

theorem Sound.parts_step {fuel : Nat} (hs : Sound fuel) {t rest : Text} {ps : List Predicate}
    (h : readParts? (fuel + 1) t = some (ps, rest)) :
    ∃ s, t = s ++ CodePoint.ofChar ')' :: rest ∧ IsList s ps := by
  rw [readParts?] at h
  split at h
  · rename_i after ha
    cases h
    exact ⟨[], Text.after?_eq_some_iff.mp ha, .nil⟩
  · obtain ⟨s, q, qs, ht, _, hp⟩ := hs.someParts h
    exact ⟨s, ht, hp⟩

theorem Sound.someParts_step {fuel : Nat} (hs : Sound fuel) {t rest : Text} {ps : List Predicate}
    (h : readSomeParts? (fuel + 1) t = some (ps, rest)) :
    ∃ s q qs, t = s ++ CodePoint.ofChar ')' :: rest ∧ ps = q :: qs ∧ IsList s ps := by
  simp only [readSomeParts?, Option.bind_eq_bind, Option.bind_eq_some_iff] at h
  obtain ⟨⟨p, r⟩, hp, h⟩ := h
  obtain ⟨s, rfl, hd⟩ := hs.front hp
  simp only at h
  split at h
  · simp only [Option.bind_eq_some_iff, Option.pure_def, Option.some.injEq, Prod.mk.injEq] at h
    obtain ⟨r', hr, rfl, rfl⟩ := h
    rw [Text.after?_eq_some_iff.mp hr]
    exact ⟨s, p, [], rfl, rfl, .one hd⟩
  · rename_i after ha
    simp only [Option.bind_eq_some_iff, Option.pure_def, Option.some.injEq, Prod.mk.injEq] at h
    obtain ⟨⟨qs, r'⟩, hq, rfl, rfl⟩ := h
    obtain ⟨s', q, qs, rfl, rfl, hl⟩ := hs.someParts hq
    refine ⟨_, p, _, ?_, rfl, .cons hd hl⟩
    rw [Text.after?_eq_some_iff.mp ha]
    simp only [List.append_assoc]
    rfl

theorem readers_sound (fuel : Nat) : Sound fuel := by
  induction fuel with
  | zero => exact ⟨fun h => by contradiction, fun h => by contradiction, fun h => by contradiction⟩
  | succ fuel ih => exact ⟨ih.front_step, ih.parts_step, ih.someParts_step⟩

theorem read?_of_isPredicate {t : Text} {p : Predicate} (h : IsPredicate t p) : read? t = some p := by
  have hr := readFront?_of_isPredicate h [] (3 * t.length + 3) (by omega)
  rw [List.append_nil] at hr
  rw [read?, hr]

theorem isPredicate_of_read? {t : Text} {p : Predicate} (h : read? t = some p) : IsPredicate t p := by
  rw [read?] at h
  split at h
  · rename_i q hr
    cases h
    obtain ⟨s, rfl, hp⟩ := (readers_sound _).front hr
    rw [List.append_nil]
    exact hp
  · contradiction

/-- The reader takes the texts of the grammar, each for the one predicate that it stands for. -/
theorem read?_eq_some_iff {t : Text} {p : Predicate} : read? t = some p ↔ IsPredicate t p :=
  ⟨isPredicate_of_read?, read?_of_isPredicate⟩

theorem read?_token (p : Predicate) : read? p.token = some p :=
  read?_of_isPredicate (isPredicate_token p)

end Predicate

end FilterQuery
