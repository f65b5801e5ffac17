import FilterQuery.Proofs.UrlSafe
import FilterQuery.Request.Basic

namespace FilterQuery

/-- Pieces without the separator come back from their join. -/
theorem Text.split_join {c : CodePoint} {ts : List Text} (hne : ts ≠ []) (h : ∀ t ∈ ts, c ∉ t) :
    split c (join [c] ts) = ts := by
  induction ts with
  | nil => contradiction
  | cons t ts ih =>
    obtain ⟨ht, hts⟩ := List.forall_mem_cons.mp h
    cases ts with
    | nil => exact split_of_not_mem ht
    | cons s ts =>
      have hj : join [c] (t :: s :: ts) = t ++ c :: join [c] (s :: ts) := by simp [join]
      rw [hj, split_append ht, ih (List.cons_ne_nil s ts) hts]

namespace QueryString

/-- A piece at its first equals sign: a name and a text. -/
def cut? (piece : Text) : Option (Text × Text) :=
  (Text.after? '=' (piece.dropWhile (· ≠ CodePoint.ofChar '='))).map fun t =>
    (piece.takeWhile (· ≠ CodePoint.ofChar '='), t)

/-- The pieces between ampersands, each at its first equals sign. An empty query string has none. -/
def read? (q : Text) : Option (List (Text × Text)) :=
  if q = [] then some [] else (Text.split '&' q).mapM cut?

def write (parts : List (Text × Text)) : Text :=
  Text.join "&" (parts.map fun part => part.1 ++ "=" ++ part.2)

theorem cut?_part {name : Text} (h : CodePoint.ofChar '=' ∉ name) (t : Text) :
    cut? (name ++ "=" ++ t) = some (name, t) := by
  obtain ⟨ht, hd⟩ := Text.cut_mark h t
  have he : name ++ Text.ofString "=" ++ t = name ++ CodePoint.ofChar '=' :: t := by
    rw [List.append_assoc]
    rfl
  rw [cut?, he, ht, hd, Text.after?_cons, Option.map_some]

theorem mapM_cut? {parts : List (Text × Text)} (h : ∀ part ∈ parts, CodePoint.ofChar '=' ∉ part.1) :
    (parts.map fun part => part.1 ++ Text.ofString "=" ++ part.2).mapM cut? = some parts := by
  induction parts with
  | nil => rfl
  | cons part parts ih =>
    obtain ⟨hp, hps⟩ := List.forall_mem_cons.mp h
    rw [List.map_cons, List.mapM_cons, cut?_part hp, ih hps]
    rfl

theorem write_ne_nil (part : Text × Text) (parts : List (Text × Text)) : write (part :: parts) ≠ [] := by
  rw [write, List.map_cons]
  cases parts <;> simp [Text.join, Text.ofString]

theorem write_eq_nil_iff {parts : List (Text × Text)} : write parts = [] ↔ parts = [] := by
  cases parts with
  | nil => simp [write, Text.join]
  | cons part parts => simp [write_ne_nil part parts]

theorem not_mem_write {c : CodePoint} (hc : c ∉ Text.ofString "&=") {parts : List (Text × Text)}
    (h : ∀ part ∈ parts, c ∉ part.1 ∧ c ∉ part.2) : c ∉ write parts := by
  have hm : c ≠ CodePoint.ofChar '&' ∧ c ≠ CodePoint.ofChar '=' := by
    simpa [Text.ofString] using hc
  induction parts with
  | nil => exact List.not_mem_nil
  | cons part parts ih =>
    obtain ⟨hp, hps⟩ := List.forall_mem_cons.mp h
    have hpart : c ∉ part.1 ++ Text.ofString "=" ++ part.2 := by
      simp [Text.ofString, hp, hm]
    cases parts with
    | nil => exact hpart
    | cons next parts =>
      have hw : write (part :: next :: parts) =
          part.1 ++ Text.ofString "=" ++ part.2 ++ Text.ofString "&" ++ write (next :: parts) := rfl
      rw [hw, List.mem_append, List.mem_append, not_or, not_or]
      exact ⟨⟨hpart, by simp [Text.ofString, hm]⟩, ih hps⟩

/-- Parts whose names hold neither mark, and whose texts hold no ampersand, are read as they were written. -/
theorem read?_write {parts : List (Text × Text)}
    (hn : ∀ part ∈ parts, CodePoint.ofChar '&' ∉ part.1 ∧ CodePoint.ofChar '=' ∉ part.1)
    (ht : ∀ part ∈ parts, CodePoint.ofChar '&' ∉ part.2) : read? (write parts) = some parts := by
  cases parts with
  | nil => rfl
  | cons part parts =>
    rw [read?, if_neg (write_ne_nil part parts), ← mapM_cut? fun p hp => (hn p hp).2]
    refine congrArg (List.mapM cut?) (Text.split_join (by simp) (List.forall_mem_map.mpr ?_))
    intro p hp
    have heq : CodePoint.ofChar '&' ∉ Text.ofString "=" := by decide
    simp only [List.mem_append, not_or]
    exact ⟨⟨(hn p hp).1, heq⟩, ht p hp⟩

end QueryString

namespace Request

/-- What a validated request holds: each part is null or of its own kind. -/
structure IsValid (r : Request) : Prop where
  filter : r.filter = some .null ∨ ∃ t, r.filter = some (.text t)
  sort : r.sort = some .null ∨ (∃ t, r.sort = some (.text t)) ∨ ∃ items, r.sort = some (.list items)
  limit : r.limit = some .null ∨ ∃ n : Int, 0 ≤ n ∧ r.limit = some (.int n)
  extras : r.extras = []

theorem validateFilter_ok {v w : Value} (h : validateFilter v = .ok w) : w = .null ∨ ∃ t, w = .text t := by
  unfold validateFilter at h
  split at h
  · exact .inl (Except.ok.inj h).symm
  · split at h
    · exact .inr ⟨_, (Except.ok.inj h).symm⟩
    · contradiction

theorem validateSort_ok {v w : Value} (h : validateSort v = .ok w) :
    w = .null ∨ (∃ t, w = .text t) ∨ ∃ items, w = .list items := by
  unfold validateSort at h
  split at h
  · exact .inl (Except.ok.inj h).symm
  · exact .inr (.inl ⟨_, (Except.ok.inj h).symm⟩)
  · split at h
    · contradiction
    · split at h
      · exact .inr (.inr ⟨_, (Except.ok.inj h).symm⟩)
      · contradiction

end Request

namespace Validation

theorem count_ok {v : Value} {n : Int} (h : count v = .ok n) : 0 ≤ n := by
  unfold count at h
  cases hi : int v with
  | error problem =>
    rw [hi] at h
    contradiction
  | ok m =>
    rw [hi] at h
    change (if m < 0 then faulty .negative else pure m) = Except.ok n at h
    split at h
    · contradiction
    · cases h
      omega

end Validation

namespace Request

theorem validateLimit_ok {v w : Value} (h : validateLimit v = .ok w) :
    w = .null ∨ ∃ n : Int, 0 ≤ n ∧ w = .int n := by
  unfold validateLimit at h
  split at h
  · exact .inl (Except.ok.inj h).symm
  · split at h
    · rename_i n hn
      exact .inr ⟨n, Validation.count_ok hn, (Except.ok.inj h).symm⟩
    · contradiction

theorem isValid_of_arguments {arguments : Entries} {r : Request} (h : ofArguments arguments = .ok r) :
    r.IsValid := by
  unfold ofArguments at h
  simp only at h
  split at h
  · rename_i filter sort limit hf hs hl
    cases h
    refine ⟨?_, ?_, ?_, rfl⟩
    · simpa using validateFilter_ok hf
    · simpa using validateSort_ok hs
    · simpa using validateLimit_ok hl
  · contradiction

/-- An item that a caller puts into a sort list. -/
inductive IsSortItem : Value → Prop
  | order (o : Order) : IsSortItem (.order o)
  | token {t : Text} (h : IsOrderToken t) : IsSortItem (.text t)

/-- What a caller puts for a sort: nothing, the answer of the constructor of sorts to order tokens, or a list. -/
inductive IsSort : Value → Prop
  | null : IsSort .null
  | text {spread : Spread} {tokens : List Text} {t : Text} (ho : ∀ token ∈ tokens, IsOrderToken token)
      (h : Constructor.sort.token (spread.arguments tokens) = .ok t) : IsSort (.text t)
  | list {items : List Value} (h : ∀ item ∈ items, IsSortItem item) : IsSort (.list items)

/-- A request whose filter and sort are tokens of the library, and whose limit can be written. -/
structure IsBuilt (r : Request) : Prop where
  filter : ∀ t, r.filter = some (.text t) → IsFilterToken t
  sort : ∀ v, r.sort = some v → IsSort v
  limit : ∀ n, r.limit = some (.int n) → (Value.int n).isPrintable

theorem itemToken_of_isSortItem {v : Value} (h : IsSortItem v) : ∃ t, itemToken v = .ok t ∧ t.UrlSafe := by
  cases h with
  | order o => exact ⟨o.token, rfl, o.urlSafe_token⟩
  | token h => exact ⟨_, rfl, h.urlSafe⟩

theorem itemTokens_of_isSortItem {items : List Value} (h : ∀ item ∈ items, IsSortItem item) :
    ∃ ts, items.mapM itemToken = .ok ts ∧ ∀ t ∈ ts, t.UrlSafe := by
  induction items with
  | nil => exact ⟨[], rfl, List.forall_mem_nil _⟩
  | cons item items ih =>
    obtain ⟨hi, his⟩ := List.forall_mem_cons.mp h
    obtain ⟨t, ht, hs⟩ := itemToken_of_isSortItem hi
    obtain ⟨ts, hts, hss⟩ := ih his
    refine ⟨t :: ts, ?_, List.forall_mem_cons.mpr ⟨hs, hss⟩⟩
    rw [List.mapM_cons, ht, hts]
    rfl

theorem specification_list {items : List Value} {ts : List Text} (h : items.mapM itemToken = .ok ts) :
    specification (.list items) = .ok (some ts.flatten) := by
  change (do return some (← items.mapM itemToken).flatten : Except Failure (Option Text)) = _
  rw [h]
  rfl

theorem specification_of_isSort {v : Value} (h : IsSort v) :
    ∃ sort, specification v = .ok sort ∧ (sort = none ↔ v = .null) ∧ ∀ t ∈ sort, t.UrlSafe := by
  cases h with
  | null => exact ⟨none, rfl, by simp, by simp⟩
  | @text spread tokens t ho h =>
    refine ⟨some t, rfl, by simp, ?_⟩
    change ((Constructor.collect (spread.arguments tokens)).mapM Value.asText).map List.flatten = .ok t at h
    rw [collect_arguments, Expression.mapM_asText] at h
    cases h
    rintro _ ⟨⟩
    exact Text.UrlSafe.flatten fun token hm => (ho token hm).urlSafe
  | @list items h =>
    obtain ⟨ts, hts, hs⟩ := itemTokens_of_isSortItem h
    refine ⟨some ts.flatten, specification_list hts, by simp, ?_⟩
    rintro _ ⟨⟩
    exact Text.UrlSafe.flatten hs

/-- The text of the filter, if there is one. -/
def filterText? (r : Request) : Option Text := r.filter.bind Value.text?

/-- The decimal of the limit, if there is one. -/
def limitText? (r : Request) : Option Text :=
  match r.limit with
  | some (.int n) => some (Text.ofInt n)
  | _ => none

/-- The parts that are set, each under its name. -/
def parts (r : Request) (s : Settings) (sort : Option Text) : List (Text × Text) :=
  (r.filterText?.map (s.filterName, ·)).toList ++ (sort.map (s.sortName, ·)).toList ++
    (r.limitText?.map (s.limitName, ·)).toList

theorem part_eq (s : Settings) (p : Parameter) (t : Option Text) :
    part s p t = (t.map (s.name p, ·)).toList.map fun part => part.1 ++ Text.ofString "=" ++ part.2 := by
  cases t <;> rfl

theorem partText_filter {r : Request} (hv : r.IsValid) :
    ∃ v, r.filter = some v ∧ partText v = .ok r.filterText? := by
  rcases hv.filter with h | ⟨t, h⟩
  · exact ⟨_, h, by rw [filterText?, h]; rfl⟩
  · exact ⟨_, h, by rw [filterText?, h]; rfl⟩

theorem partText_limit {r : Request} (hv : r.IsValid) (hb : r.IsBuilt) :
    ∃ v, r.limit = some v ∧ partText v = .ok r.limitText? := by
  rcases hv.limit with h | ⟨n, _, h⟩
  · exact ⟨_, h, by rw [limitText?, h]; rfl⟩
  · refine ⟨_, h, ?_⟩
    rw [limitText?, h, partText, Value.plain?, if_pos (hb.limit n h)]
    · rfl
    · simp

/-- The token and the query string of a built request: both are there, and the second is written from the parts. -/
theorem queryString_of_isBuilt {r : Request} (hv : r.IsValid) (hb : r.IsBuilt) (s : Settings) :
    ∃ sort, r.sortToken = .ok sort ∧ (sort = none ↔ r.sort = some .null) ∧ (∀ t ∈ sort, t.UrlSafe) ∧
      r.queryString s = .ok (QueryString.write (r.parts s sort)) := by
  obtain ⟨v, hsort⟩ : ∃ v, r.sort = some v := by
    rcases hv.sort with h | ⟨t, h⟩ | ⟨items, h⟩
    · exact ⟨_, h⟩
    · exact ⟨_, h⟩
    · exact ⟨_, h⟩
  obtain ⟨sort, hspec, hnull, hsafe⟩ := specification_of_isSort (hb.sort v hsort)
  obtain ⟨vf, hf, hft⟩ := partText_filter hv
  obtain ⟨vl, hl, hlt⟩ := partText_limit hv hb
  have htoken : r.sortToken = .ok sort := by
    rw [sortToken, hv.extras, hsort]
    exact hspec
  refine ⟨sort, htoken, by simp [hsort, hnull], hsafe, ?_⟩
  have hoffers : r.extras.offers "to_query_string" = .ok () := by
    rw [hv.extras]
    exact Extras.offers_nil _
  simp only [queryString, hoffers, hf, hl, held, hft, hlt, htoken, bind, Except.bind, pure, Except.pure]
  simp only [QueryString.write, parts, List.map_append, part_eq]
  rfl

theorem mem_parts {r : Request} {s : Settings} {sort : Option Text} {part : Text × Text}
    (h : part ∈ r.parts s sort) :
    (part.1 = s.filterName ∧ r.filterText? = some part.2) ∨ (part.1 = s.sortName ∧ sort = some part.2) ∨
      (part.1 = s.limitName ∧ r.limitText? = some part.2) := by
  simp only [parts, List.mem_append, Option.mem_toList, Option.map_eq_some_iff] at h
  rcases h with (⟨t, ht, rfl⟩ | ⟨t, ht, rfl⟩) | ⟨t, ht, rfl⟩
  · exact .inl ⟨rfl, ht⟩
  · exact .inr (.inl ⟨rfl, ht⟩)
  · exact .inr (.inr ⟨rfl, ht⟩)

theorem urlSafe_of_mem_parts {r : Request} {s : Settings} {sort : Option Text} (hb : r.IsBuilt)
    (hs : ∀ t ∈ sort, t.UrlSafe) {part : Text × Text} (h : part ∈ r.parts s sort) : part.2.UrlSafe := by
  rcases mem_parts h with ⟨_, hf⟩ | ⟨_, ht⟩ | ⟨_, hl⟩
  · obtain ⟨v, hv, ht⟩ := Option.bind_eq_some_iff.mp hf
    cases v with
    | text t =>
      cases ht
      exact (hb.filter _ hv).urlSafe
    | _ => contradiction
  · exact hs _ ht
  · unfold limitText? at hl
    split at hl
    · rw [← Option.some.inj hl]
      exact Text.urlSafe_ofInt _
    · contradiction

theorem parts_eq_nil_iff {r : Request} (hv : r.IsValid) (s : Settings) {sort : Option Text}
    (hs : sort = none ↔ r.sort = some .null) :
    r.parts s sort = [] ↔ r.filter = some .null ∧ r.sort = some .null ∧ r.limit = some .null := by
  have hf : r.filterText? = none ↔ r.filter = some .null := by
    rcases hv.filter with h | ⟨t, h⟩ <;> simp [filterText?, h, Value.text?]
  have hl : r.limitText? = none ↔ r.limit = some .null := by
    rcases hv.limit with h | ⟨n, _, h⟩ <;> simp [limitText?, h]
  simp only [parts, List.append_eq_nil_iff, Option.toList_eq_nil_iff, Option.map_eq_none_iff, hf, hs, hl,
    and_assoc]

/-- The names of the parts are among the three configured ones, in their order. -/
theorem names_parts (r : Request) (s : Settings) (sort : Option Text) :
    ((r.parts s sort).map Prod.fst).Sublist (Parameter.all.map s.name) := by
  have hpart (name : Text) (t : Option Text) :
      ((t.map (name, ·)).toList.map Prod.fst).Sublist [name] := by
    cases t <;> simp
  rw [parts, List.map_append, List.map_append]
  exact ((hpart s.filterName _).append (hpart s.sortName _)).append (hpart s.limitName _)

end Request

/-- Names under which parts can be told apart in a query string. -/
structure Settings.IsSeparable (s : Settings) : Prop where
  distinct : (Parameter.all.map s.name).Nodup
  plain : ∀ p, CodePoint.ofChar '&' ∉ s.name p ∧ CodePoint.ofChar '=' ∉ s.name p

namespace Request

theorem name_of_mem_parts {r : Request} {s : Settings} {sort : Option Text} {part : Text × Text}
    (h : part ∈ r.parts s sort) : ∃ p, s.name p = part.1 := by
  obtain ⟨p, _, hp⟩ := List.mem_map.mp ((names_parts r s sort).subset (List.mem_map_of_mem h))
  exact ⟨p, hp⟩

theorem isDecimalOf_limitText? {r : Request} (hv : r.IsValid) {n : Int} (h : r.limit = some (.int n)) :
    ∃ d : Digits, r.limitText? = some d.toText ∧ d.IsDecimalOf n.toNat := by
  obtain ⟨m, hm, hl⟩ : ∃ m : Int, 0 ≤ m ∧ r.limit = some (.int m) := by
    rcases hv.limit with hl | hl
    · rw [h] at hl
      cases hl
    · exact hl
  cases h.symm.trans hl
  refine ⟨Digits.ofNat n.toNat, ?_, Digits.isDecimalOf_ofNat _⟩
  have hneg : ¬n < 0 := by omega
  have habs : n.natAbs = n.toNat := by omega
  simp [limitText?, h, Text.ofInt, Numeral.ofInt, Numeral.toText, Numeral.sign, Numeral.fractionText,
    Numeral.exponentText, hneg, habs]

/-- The query string of a request built from tokens, cut at the ampersands and at the first equals sign of each
piece, gives back the parts that are set: filter, sort and limit in this order, each once, under its name, with
its text. It is empty if none is. -/
theorem queryString_parts {arguments : Entries} {r : Request} {s : Settings}
    (h : ofArguments arguments = .ok r) (hb : r.IsBuilt) (hs : s.IsSeparable) :
    ∃ q sort, r.queryString s = .ok q ∧ r.sortToken = .ok sort ∧ (sort = none ↔ r.sort = some .null) ∧
      QueryString.read? q = some (r.parts s sort) ∧ ((r.parts s sort).map Prod.fst).Nodup ∧
      (∀ n, r.limit = some (.int n) → ∃ d : Digits, r.limitText? = some d.toText ∧ d.IsDecimalOf n.toNat) ∧
      (q = [] ↔ r.filter = some .null ∧ r.sort = some .null ∧ r.limit = some .null) := by
  have hv := isValid_of_arguments h
  obtain ⟨sort, hsort, hnull, hsafe, hq⟩ := queryString_of_isBuilt hv hb s
  refine ⟨_, sort, hq, hsort, hnull, ?_, ?_, fun n => isDecimalOf_limitText? hv, ?_⟩
  -- The texts are those of tokens and numbers, which hold no ampersand; an equals sign in one does no harm.
  · refine QueryString.read?_write ?_ fun part hp => (urlSafe_of_mem_parts hb hsafe hp).not_mem (by decide)
    intro part hp
    obtain ⟨p, hname⟩ := name_of_mem_parts hp
    exact hname ▸ hs.plain p
  · exact (names_parts r s sort).nodup hs.distinct
  · rw [QueryString.write_eq_nil_iff]
    exact parts_eq_nil_iff hv s hnull

/-- An ampersand and an equals sign inside the filter and the sort, a list that mixes orders and tokens, and a
limit of zero. -/
theorem queryString_parts_mixed :
    let arguments : Entries := [(.text "filter", .text "not(eq(a%26b,$x%3Dy))"),
      (.text "sort", .list [.dict [(.text "field", .text "p&q")], .text "!rooms"]), (.text "limit", .int 0)]
    let r : Request := ⟨some (.text "not(eq(a%26b,$x%3Dy))"),
      some (.list [.order ⟨"p&q", true⟩, .text "!rooms"]), some (.int 0), []⟩
    let s : Settings := ⟨"where", "order", "top"⟩
    let q : Text := "where=not(eq(a%26b,$x%3Dy))&order=p%26q!rooms&top=0"
    let parts : List (Text × Text) := [("where", "not(eq(a%26b,$x%3Dy))"), ("order", "p%26q!rooms"), ("top", "0")]
    ofArguments arguments = .ok r ∧ r.IsBuilt ∧ s.IsSeparable ∧ r.queryString s = .ok q ∧
      QueryString.read? q = some parts := by
  intro arguments r s q parts
  have h : ofArguments arguments = .ok r := by with_unfolding_all rfl
  have hb : r.IsBuilt := by
    refine ⟨?_, ?_, ?_⟩
    · intro t ht
      cases ht
      exact .inl ⟨.negation (.equal .separate "a&b" [.string (some "x=y")]), rfl⟩
    · intro v hv
      cases hv
      have hrooms : IsOrderToken "!rooms" := ⟨[.text "rooms", .bool false], rfl⟩
      exact .list (List.forall_mem_cons.mpr ⟨.order _, List.forall_mem_singleton.mpr (.token hrooms)⟩)
    · intro n hn
      cases hn
      with_unfolding_all rfl
  have hs : s.IsSeparable := ⟨by decide, fun p => by cases p <;> decide⟩
  obtain ⟨q', sort, hq', hsort', _, hr, _⟩ := queryString_parts h hb hs
  have hq : r.queryString s = .ok q := by with_unfolding_all rfl
  have hsort : r.sortToken = .ok (some "p%26q!rooms") := by with_unfolding_all rfl
  have hp : r.parts s (some "p%26q!rooms") = parts := by with_unfolding_all rfl
  cases hq.symm.trans hq'
  cases hsort.symm.trans hsort'
  exact ⟨h, hb, hs, hq, hp ▸ hr⟩

end Request

end FilterQuery
