import FilterQuery.Proofs.SortRuns
import FilterQuery.Settings.Session

namespace FilterQuery

namespace Order

/-- An item of a sort list that stands for an order. -/
inductive Spells (o : Order) : Value → Prop
  | order : Spells o (.order o)
  | dict {entries : Entries} (hf : entries.field? "field" = some (.text o.field))
      (ha : entries.field? "ascending" = some (.bool o.ascending)) : Spells o (.dict entries)
  /-- The direction may be left out where it is the one that goes without saying. -/
  | ascending {entries : Entries} (hf : entries.field? "field" = some (.text o.field))
      (ha : entries.field? "ascending" = none) (h : o.ascending = true) : Spells o (.dict entries)
  | token {t : Text} (h : o.call = .ok t) : Spells o (.text t)

end Order

namespace Request

variable {o : Order} {orders : List Order} {item : Value} {items : List Value}

/-- An item that stands for an order is accepted, and written with the order's token. -/
theorem validateItem_spells (h : o.Spells item) :
    ∃ v, validateItem item = .ok v ∧ itemToken v = .ok o.token := by
  cases h with
  | order => exact ⟨.order o, rfl, rfl⟩
  | dict hf ha =>
    refine ⟨.order o, ?_, rfl⟩
    rw [validateItem, Order.validate, hf, ha]
    rfl
  | ascending hf ha h =>
    refine ⟨.order o, ?_, rfl⟩
    rw [validateItem, Order.validate, hf, ha]
    obtain ⟨field, ascending⟩ := o
    cases h
    rfl
  | @token t h =>
    rw [Order.call_eq] at h
    cases h
    exact ⟨.text o.token, rfl, rfl⟩

theorem validateItems_spells (h : List.Forall₂ Order.Spells orders items) (index : Nat) :
    ∃ vs, validateItems index items = .ok vs ∧ vs.mapM itemToken = .ok (orders.map Order.token) := by
  induction h generalizing index with
  | nil => exact ⟨[], rfl, rfl⟩
  | cons ho _ ih =>
    obtain ⟨v, hv, ht⟩ := validateItem_spells ho
    obtain ⟨vs, hvs, hts⟩ := ih (index + 1)
    refine ⟨v :: vs, ?_, ?_⟩
    · rw [validateItems, hv, hvs]
    · rw [List.mapM_cons, ht, hts]
      rfl

/-- A sort list of spelled orders is accepted and means their specification. -/
theorem validateSort_spells (h : List.Forall₂ Order.Spells orders items) :
    ∃ v, validateSort (.list items) = .ok v ∧ specification v = .ok (some (Order.specification orders)) := by
  obtain ⟨vs, hvs, hts⟩ := validateItems_spells h 0
  refine ⟨.list vs, ?_, ?_⟩
  · simp only [validateSort, items?, hvs]
  · rw [specification_list hts, Order.specification, List.flatMap_def]

/-- Arguments with a sort that is accepted make the request that they make without one, but for the sort. -/
theorem ofArguments_sort {v w : Value} (h : validateSort v = .ok w) (others : Entries) :
    ofArguments ((.text "sort", v) :: others) =
      (ofArguments ((.text "sort", .null) :: others)).map fun r => { r with sort := some w } := by
  have hf (v : Value) : Entries.field? "filter" ((.text "sort", v) :: others) = others.field? "filter" := rfl
  have hs (v : Value) : Entries.field? "sort" ((.text "sort", v) :: others) = some v := rfl
  have hl (v : Value) : Entries.field? "limit" ((.text "sort", v) :: others) = others.field? "limit" := rfl
  have hnull : validateSort .null = .ok .null := rfl
  simp only [ofArguments, hf, hs, hl, Option.getD_some, h, hnull]
  cases validateFilter ((others.field? "filter").getD .null) with
  | error issues => rfl
  | ok filter => cases validateLimit ((others.field? "limit").getD .null) <;> rfl

/-- Sorts of one meaning are written alike. -/
theorem queryString_sort {v w : Value} (h : specification v = specification w) (r : Request) (s : Settings) :
    { r with sort := some v }.queryString s = { r with sort := some w }.queryString s := by
  have ht : { r with sort := some v }.sortToken = { r with sort := some w }.sortToken := by
    simp only [sortToken, held, bind, Except.bind, h]
  simp only [queryString, ht]

end Request

/-- Rendering does not tell sorts of one meaning apart. -/
theorem Session.step_sort {v v' w w' : Value} (hv : Request.validateSort v = .ok v')
    (hw : Request.validateSort w = .ok w') (h : Request.specification v' = Request.specification w')
    (s : Session) (given : Option Settings) (others : Entries) :
    s.step (.queryString given ((.text "sort", v) :: others)) =
      s.step (.queryString given ((.text "sort", w) :: others)) := by
  simp only [step, render, Request.ofArguments_sort hv, Request.ofArguments_sort hw]
  cases Request.ofArguments ((.text "sort", .null) :: others) with
  | error failure => rfl
  | ok r =>
    have hq := funext (Request.queryString_sort h r)
    cases given <;> simp only [Except.map, hq]

namespace Request

/-- A list of orders, each spelled as an order, as a dictionary or as a token, is accepted as a sort, and its token and
query string are those of the specification of the orders as one text, in any request and with any settings. -/
theorem sort_spellings {orders : List Order} {items : List Value} (h : List.Forall₂ Order.Spells orders items)
    (spread : Spread) :
    ∃ t, Order.sortCall spread orders = .ok t ∧
      (∃ r r', ofArguments [(.text "sort", .list items)] = .ok r ∧ ofArguments [(.text "sort", .text t)] = .ok r' ∧
        r.sortToken = .ok (some t) ∧ r'.sortToken = .ok (some t) ∧
        ∀ s : Settings, r.queryString s = .ok (s.sortName ++ "=" ++ t) ∧
          r'.queryString s = .ok (s.sortName ++ "=" ++ t)) ∧
      ∀ (session : Session) given others,
        session.step (.queryString given ((.text "sort", .list items) :: others)) =
          session.step (.queryString given ((.text "sort", .text t) :: others)) := by
  obtain ⟨v, hv, hs⟩ := validateSort_spells h
  let plain : Request := ⟨some .null, some .null, some .null, []⟩
  let t := Order.specification orders
  have hq (s : Settings) : { plain with sort := some (.text t) }.queryString s = .ok (s.sortName ++ "=" ++ t) := rfl
  refine ⟨t, Order.sortCall_eq spread orders, ?_, Session.step_sort hv rfl hs⟩
  refine ⟨{ plain with sort := some v }, { plain with sort := some (.text t) }, ?_, rfl, hs, rfl, ?_⟩
  · exact ofArguments_sort hv []
  · intro s
    exact ⟨(queryString_sort hs plain s).trans (hq s), hq s⟩

/-- A direction left out, one that is said, an order as it is, and tokens between them. -/
theorem sort_spellings_mixed :
    let orders : List Order := [⟨"my field", true⟩, ⟨"rooms", false⟩, ⟨"a&b", false⟩, ⟨"", true⟩, ⟨"price", true⟩]
    let items : List Value := [.dict [(.text "field", .text "my field")],
      .dict [(.text "ascending", .bool false), (.text "field", .text "rooms")], .text "!a%26b", .text "",
      .order ⟨"price", true⟩]
    List.Forall₂ Order.Spells orders items ∧
      ∃ r, ofArguments [(.text "sort", .list items)] = .ok r ∧ r.sortToken = .ok (some "my%20field!rooms!a%26bprice") ∧
        r.queryString ⟨"where", "order", "top"⟩ = .ok "order=my%20field!rooms!a%26bprice" := by
  intro orders items
  have h : List.Forall₂ Order.Spells orders items :=
    .cons (.ascending rfl rfl rfl) (.cons (.dict rfl rfl) (.cons (.token rfl) (.cons (.token rfl)
      (.cons .order .nil))))
  obtain ⟨t, ht, ⟨r, _, hr, _, htoken, _, hq⟩, _⟩ := sort_spellings h .separate
  have hs : Order.sortCall .separate orders = .ok "my%20field!rooms!a%26bprice" := rfl
  cases ht.symm.trans hs
  exact ⟨h, r, hr, htoken, (hq _).1⟩

end Request

end FilterQuery
