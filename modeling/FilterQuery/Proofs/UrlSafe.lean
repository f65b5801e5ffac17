import FilterQuery.Proofs.Expression
import FilterQuery.Proofs.Outline

namespace FilterQuery

/-- The code points that tokens are written with. -/
def CodePoint.isTokenPart (c : CodePoint) : Bool := c.isAtomic || c.isDelimiter || c = '!'

namespace Text

/-- A text written with the code points of tokens alone. -/
def UrlSafe (t : Text) : Prop := ∀ c ∈ t, c.isTokenPart

instance (t : Text) : Decidable (UrlSafe t) := inferInstanceAs (Decidable (∀ c ∈ t, c.isTokenPart))

theorem UrlSafe.not_mem {c : CodePoint} {t : Text} (h : UrlSafe t) (hc : c.isTokenPart = false) : c ∉ t := by
  intro hm
  rw [h c hm] at hc
  contradiction

theorem UrlSafe.append {s t : Text} (hs : UrlSafe s) (ht : UrlSafe t) : UrlSafe (s ++ t) := by
  intro c hc
  rcases List.mem_append.mp hc with hc | hc
  · exact hs c hc
  · exact ht c hc

theorem UrlSafe.flatten {ts : List Text} (h : ∀ t ∈ ts, UrlSafe t) : UrlSafe ts.flatten := by
  intro c hc
  obtain ⟨t, ht, hc⟩ := List.mem_flatten.mp hc
  exact h t ht c hc

theorem UrlSafe.join {separator : Text} (hs : UrlSafe separator) {ts : List Text}
    (h : ∀ t ∈ ts, UrlSafe t) : UrlSafe (Text.join separator ts) := by
  induction ts with
  | nil => exact (by decide : UrlSafe [])
  | cons t ts ih =>
    obtain ⟨ht, hts⟩ := List.forall_mem_cons.mp h
    cases ts with
    | nil => exact ht
    | cons s ts => exact (ht.append hs).append (ih hts)

theorem UrlSafe.call {operator : Text} (ho : UrlSafe operator) {ts : List Text}
    (h : ∀ t ∈ ts, UrlSafe t) : UrlSafe (Token.call operator ts) := by
  have hopen : UrlSafe "(" := by decide
  have hclose : UrlSafe ")" := by decide
  have hcomma : UrlSafe "," := by decide
  exact ((ho.append hopen).append (hcomma.join h)).append hclose

theorem Atomic.urlSafe {t : Text} (h : Atomic t) : UrlSafe t := by
  intro c hc
  simp only [CodePoint.isTokenPart, h c hc, Bool.true_or]

theorem urlSafe_escape (t : Text) : t.escape.UrlSafe := t.escapes_escape.atomic.urlSafe

theorem urlSafe_ofInt (n : Int) : (ofInt n).UrlSafe := (Numeral.ofInt n).atomic.urlSafe

end Text

theorem Literal.urlSafe_token (l : Literal) : l.token.UrlSafe := (Grammar.isLiteral_token l).atomic.urlSafe

theorem Order.urlSafe_token (o : Order) : o.token.UrlSafe := by
  rw [Order.token]
  split
  · exact o.field.urlSafe_escape
  · have hmark : Text.UrlSafe "!" := by decide
    exact hmark.append o.field.urlSafe_escape

theorem Comparison.urlSafe_token (c : Comparison) : c.token.UrlSafe := by
  cases c with
  | equal field values =>
    refine Text.UrlSafe.call (by decide) (List.forall_mem_cons.mpr ⟨field.urlSafe_escape, ?_⟩)
    intro t ht
    obtain ⟨l, _, rfl⟩ := List.mem_map.mp ht
    exact l.urlSafe_token
  | relate relation field value =>
    refine Text.UrlSafe.call (by cases relation <;> decide) ?_
    exact List.forall_mem_cons.mpr ⟨field.urlSafe_escape, List.forall_mem_singleton.mpr value.urlSafe_token⟩
  | fullText field text =>
    refine Text.UrlSafe.call (by decide) ?_
    exact List.forall_mem_cons.mpr
      ⟨field.urlSafe_escape, List.forall_mem_singleton.mpr (Literal.text text).urlSafe_token⟩

namespace Predicate

mutual

-- Along the tree: commas and parentheses are safe, and everything else in a token is escaped or plain.
theorem urlSafe_token (p : Predicate) : p.token.UrlSafe := by
  match p with
  | compare c => exact c.urlSafe_token
  | not p => exact Text.UrlSafe.call (by decide) (List.forall_mem_singleton.mpr (urlSafe_token p))
  | all ps => exact Text.UrlSafe.call (by decide) (urlSafe_tokens ps)
  | any ps => exact Text.UrlSafe.call (by decide) (urlSafe_tokens ps)

theorem urlSafe_tokens (ps : List Predicate) : ∀ t ∈ tokens ps, t.UrlSafe := by
  match ps with
  | [] => exact List.forall_mem_nil _
  | p :: ps => exact List.forall_mem_cons.mpr ⟨urlSafe_token p, urlSafe_tokens ps⟩

end

end Predicate

/-- Whatever kind of value is compiled, the token is that of a predicate. -/
theorem Filter.exists_predicate_of_compile {hints : Hints} {v : Value} {t : Text}
    (h : (compile hints v).1 = .ok t) : ∃ p : Predicate, t = p.token := by
  rw [compile] at h
  split at h
  · contradiction
  · rename_i group _
    change (compile hints (.dict group)).1 = .ok t at h
    obtain ⟨p, ht, _⟩ := Outline.elaborates_of_compile h
    exact ⟨p, ht⟩
  · contradiction

/-- A text that a caller puts for a filter: the token of an expression, or of a compiled description. -/
def IsFilterToken (t : Text) : Prop :=
  (∃ e : Expression, e.token = .ok t) ∨ ∃ hints v, (Filter.compile hints v).1 = .ok t

theorem IsFilterToken.urlSafe {t : Text} (h : IsFilterToken t) : t.UrlSafe := by
  rcases h with ⟨e, h⟩ | ⟨hints, v, h⟩
  · obtain ⟨p, _, rfl, _⟩ := Expression.exists_tree_of_token h
    exact p.urlSafe_token
  · obtain ⟨p, rfl⟩ := Filter.exists_predicate_of_compile h
    exact p.urlSafe_token

/-- A text that a caller puts for an order: the answer of the constructor of orders. -/
def IsOrderToken (t : Text) : Prop := ∃ arguments, Constructor.order.token arguments = .ok t

theorem Constructor.orderToken_ok {field ascending : Value} {t : Text}
    (h : orderToken field ascending = .ok t) : ∃ o : Order, t = o.token := by
  obtain ⟨name, _, h⟩ := bind_eq_ok.mp h
  split at h
  · exact ⟨⟨name, false⟩, (pure_eq_ok.mp h).symm⟩
  · exact ⟨⟨name, true⟩, (pure_eq_ok.mp h).symm⟩

theorem IsOrderToken.urlSafe {t : Text} (h : IsOrderToken t) : t.UrlSafe := by
  obtain ⟨arguments, h⟩ := h
  have ho : ∃ o : Order, t = o.token := by
    match arguments with
    | [] => contradiction
    | [field] =>
      change Constructor.orderToken field (.bool true) = .ok t at h
      exact Constructor.orderToken_ok h
    | [field, ascending] => exact Constructor.orderToken_ok h
    | _ :: _ :: _ :: _ => contradiction
  obtain ⟨o, rfl⟩ := ho
  exact o.urlSafe_token

end FilterQuery
