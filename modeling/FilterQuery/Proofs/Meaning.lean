import FilterQuery.Proofs.Outline
import FilterQuery.Proofs.PredicateReading

namespace FilterQuery

/-- Whether a rule holds: its comparison is true, or false under a negated operator. -/
def Rule.holds (hints : Hints) (truth : Comparison → Bool) (rule : Entries) : Bool :=
  match operator? rule, comparison? hints rule with
  | some operator, some c => if operator.isNegated then !truth c else truth c
  | _, _ => false

namespace Outline

mutual

/-- Whether a description holds. A negation is that of the conjunction of the parts. -/
def holds (hints : Hints) (truth : Comparison → Bool) : Outline → Bool
  | rule r => Rule.holds hints truth r
  | group (some .all) parts => allHold hints truth parts
  | group (some .any) parts => anyHolds hints truth parts
  | group (some .negation) parts => !allHold hints truth parts
  | group none _ => false
  | unlisted => false
  | stray => false

def allHold (hints : Hints) (truth : Comparison → Bool) : List Outline → Bool
  | [] => true
  | o :: os => holds hints truth o && allHold hints truth os

def anyHolds (hints : Hints) (truth : Comparison → Bool) : List Outline → Bool
  | [] => false
  | o :: os => holds hints truth o || anyHolds hints truth os

end

theorem holds_rule {hints : Hints} {r : Entries} {operator : Operator} {c : Comparison}
    (truth : Comparison → Bool) (ho : Rule.operator? r = some operator)
    (hc : Rule.comparison? hints r = some c) :
    (Rule.signed operator.isNegated (.compare c)).holds truth = Rule.holds hints truth r := by
  simp only [Rule.holds, ho, hc]
  cases operator.isNegated <;> rfl

mutual

theorem Elaborates.holds {hints : Hints} {o : Outline} {p : Predicate} (h : Elaborates hints o p)
    (truth : Comparison → Bool) : p.holds truth = o.holds hints truth := by
  match h with
  | .rule ho hc => exact holds_rule truth ho hc
  | .all hs => exact hs.allHold truth
  | .any hs => exact hs.anyHolds truth
  | .negation h =>
    rw [Predicate.holds, h.holds truth, Outline.holds, Outline.allHold, Outline.allHold, Bool.and_true]
  | .negations hs =>
    rw [Predicate.holds, Outline.holds, ← hs.allHold truth]
    rfl

theorem ElaborateAll.allHold {hints : Hints} {os : List Outline} {ps : List Predicate}
    (h : ElaborateAll hints os ps) (truth : Comparison → Bool) :
    Predicate.allHold truth ps = Outline.allHold hints truth os := by
  match h with
  | .nil => rfl
  | .cons h hs => rw [Predicate.allHold, Outline.allHold, h.holds truth, hs.allHold truth]

theorem ElaborateAll.anyHolds {hints : Hints} {os : List Outline} {ps : List Predicate}
    (h : ElaborateAll hints os ps) (truth : Comparison → Bool) :
    Predicate.anyHolds truth ps = Outline.anyHolds hints truth os := by
  match h with
  | .nil => rfl
  | .cons h hs => rw [Predicate.anyHolds, Outline.anyHolds, h.holds truth, hs.anyHolds truth]

end

end Outline

namespace Filter

/-- A compiled description reads back as one predicate: a comparison for each rule, in the order of the rules,
under groups and negations that mean what those of the description do. -/
theorem compile_meaning {hints : Hints} {group : Entries} {t : Text}
    (h : (compile hints (.dict group)).1 = .ok t) :
    ∃ p, Grammar.IsPredicate t p ∧ (∀ q, Grammar.IsPredicate t q → q = p) ∧
      Predicate.read? t = some p ∧
      (Outline.ofNode group).rules.map (Rule.comparison? hints) = p.comparisons.map some ∧
      ∀ truth, p.holds truth = (Outline.ofNode group).holds hints truth := by
  obtain ⟨p, rfl, hp⟩ := Outline.elaborates_of_compile h
  refine ⟨p, Grammar.isPredicate_token p, ?_, Predicate.read?_token p, hp.comparisons, hp.holds⟩
  intro q hq
  have hr := Predicate.read?_eq_some_iff.mpr hq
  rw [Predicate.read?_token] at hr
  exact (Option.some.inj hr).symm

/-- A negation of three parts, one of them an empty disjunction, with delimiters in a field and in a value. -/
theorem compile_meaning_nested :
    let group : Entries := [(.text "op", .text "NOT"), (.text "rules", .list [
      .dict [(.text "field_name", .text "a,b"), (.text "operator", .text "!="), (.text "value", .text "x)")],
      .dict [(.text "op", .text "OR"), (.text "rules", .list [])],
      .dict [(.text "field_name", .text []), (.text "operator", .text "in"),
        (.text "value", .tuple [.int 1, .null]), (.text "dtype", .text "int")]])]
    (compile [] (.dict group)).1 = .ok "not(and(not(eq(a%2Cb,$x%29)),or(),eq(,1,null)))" ∧
      ∃ p, Grammar.IsPredicate "not(and(not(eq(a%2Cb,$x%29)),or(),eq(,1,null)))" p ∧
        ∀ truth, p.holds truth = (Outline.ofNode group).holds [] truth := by
  intro group
  have h : (compile [] (.dict group)).1 = .ok "not(and(not(eq(a%2Cb,$x%29)),or(),eq(,1,null)))" := by
    with_unfolding_all rfl
  obtain ⟨p, hp, _, _, _, hm⟩ := compile_meaning h
  exact ⟨h, p, hp, hm⟩

end Filter

end FilterQuery
