import FilterQuery.Proofs.QueryString
import Mathlib.Data.List.TakeWhile

namespace FilterQuery

namespace Url

/-- What stands in front of the first number sign. -/
def body (url : Text) : Text := url.takeWhile (· ≠ CodePoint.ofChar '#')

/-- What follows the first number sign, if there is one. -/
def fragment? (url : Text) : Option Text := Text.after? '#' (url.dropWhile (· ≠ CodePoint.ofChar '#'))

/-- What stands in front of the query and the fragment. -/
def path (url : Text) : Text := (body url).takeWhile (· ≠ CodePoint.ofChar '?')

/-- What stands between the first question mark and the fragment, if there is a question mark. -/
def query? (url : Text) : Option Text := Text.after? '?' ((body url).dropWhile (· ≠ CodePoint.ofChar '?'))

/-- The pieces of a query between ampersands, but for empty ones. -/
def piecesOf (query : Text) : List Text := (Text.split '&' query).filter (· ≠ [])

/-- The pieces of a URL's query; a URL without one has none. -/
def pieces (url : Text) : List Text := piecesOf ((query? url).getD [])

/-- The mark in front of an appended query string. -/
def separator (base : Text) : CodePoint := if base.contains (CodePoint.ofChar '?') then '&' else '?'

theorem ne_of_not_mem {c : CodePoint} {t : Text} (h : c ∉ t) : ∀ d ∈ t, decide (d ≠ c) = true := by
  intro d hd
  exact decide_eq_true fun he => h (he ▸ hd)

theorem body_of_not_mem {t : Text} (h : CodePoint.ofChar '#' ∉ t) : body t = t :=
  List.takeWhile_eq_self_iff.mpr (ne_of_not_mem h)

theorem body_cut {t : Text} (h : CodePoint.ofChar '#' ∉ t) (f : Text) :
    body (t ++ CodePoint.ofChar '#' :: f) = t := (Text.cut_mark h f).1

theorem fragment?_cut {t : Text} (h : CodePoint.ofChar '#' ∉ t) (f : Text) :
    fragment? (t ++ CodePoint.ofChar '#' :: f) = some f := by
  rw [fragment?, (Text.cut_mark h f).2, Text.after?_cons]

theorem fragment?_eq_none_iff {t : Text} : fragment? t = none ↔ CodePoint.ofChar '#' ∉ t := by
  constructor
  · intro h hm
    obtain ⟨front, f, rfl, hf⟩ := List.eq_append_cons_of_mem hm
    rw [fragment?_cut hf] at h
    contradiction
  · intro h
    rw [fragment?, List.dropWhile_eq_nil_iff.mpr (ne_of_not_mem h)]
    rfl

theorem eq_of_fragment? {t f : Text} (h : fragment? t = some f) :
    t = body t ++ CodePoint.ofChar '#' :: f := Text.eq_of_cut h

theorem split_ne_nil (c : CodePoint) (t : Text) : Text.split c t ≠ [] := by
  cases t with
  | nil => simp [Text.split]
  | cons d t =>
    rw [Text.split]
    split
    · simp
    · split <;> simp

/-- A separator between two texts keeps their pieces apart. -/
theorem split_between (c : CodePoint) (s t : Text) :
    Text.split c (s ++ c :: t) = Text.split c s ++ Text.split c t := by
  induction s with
  | nil => simp [Text.split]
  | cons d s ih =>
    rw [List.cons_append, Text.split, Text.split, ih]
    split
    · rfl
    · obtain ⟨piece, pieces, hs⟩ := List.exists_cons_of_ne_nil (split_ne_nil c s)
      rw [hs]
      rfl

theorem piecesOf_append (s t : Text) :
    piecesOf (s ++ CodePoint.ofChar '&' :: t) = piecesOf s ++ piecesOf t := by
  rw [piecesOf, split_between, List.filter_append]
  rfl

theorem separator_of_mem {base : Text} (h : CodePoint.ofChar '?' ∈ base) : separator base = '&' := by
  rw [separator, if_pos (List.contains_iff_mem.mpr h)]

theorem separator_of_not_mem {base : Text} (h : CodePoint.ofChar '?' ∉ base) : separator base = '?' := by
  rw [separator, if_neg fun hc => h (List.contains_iff_mem.mp hc)]

theorem separator_ne (base : Text) : separator base ≠ CodePoint.ofChar '#' := by
  rw [separator]
  split <;> decide

theorem appendTo_eq (base : Text) {q : Text} (h : q ≠ []) :
    Request.appendTo base q = base ++ separator base :: q := by
  unfold Request.appendTo separator
  cases q with
  | nil => contradiction
  | cons c q =>
    rw [List.isEmpty_cons, if_neg Bool.false_ne_true]
    split
    · rw [List.append_assoc]; rfl
    · rw [List.append_assoc]; rfl

/-- A URL without a fragment gets the pieces of a query string after its own. -/
theorem append_plain {base q : Text} (hb : CodePoint.ofChar '#' ∉ base) (hq : CodePoint.ofChar '#' ∉ q) :
    path (base ++ separator base :: q) = path base ∧ fragment? (base ++ separator base :: q) = none ∧
      pieces (base ++ separator base :: q) = pieces base ++ piecesOf q := by
  have hurl : CodePoint.ofChar '#' ∉ base ++ separator base :: q := by
    simp only [List.mem_append, List.mem_cons, not_or]
    exact ⟨hb, (separator_ne base).symm, hq⟩
  have hbody := body_of_not_mem hurl
  refine ⟨?_, fragment?_eq_none_iff.mpr hurl, ?_⟩
  -- A question mark in the base is the one that both queries begin at; else the appended one is the first.
  all_goals by_cases hm : CodePoint.ofChar '?' ∈ base
  · obtain ⟨front, query, rfl, hf⟩ := List.eq_append_cons_of_mem hm
    rw [path, path, hbody, body_of_not_mem hb, List.append_assoc, (Text.cut_mark hf query).1]
    exact (Text.cut_mark hf _).1
  · rw [path, path, hbody, body_of_not_mem hb, separator_of_not_mem hm, (Text.cut_mark hm q).1]
    exact (List.takeWhile_eq_self_iff.mpr (ne_of_not_mem hm)).symm
  · have hsep := separator_of_mem hm
    obtain ⟨front, query, rfl, hf⟩ := List.eq_append_cons_of_mem hm
    rw [pieces, pieces, query?, query?, hbody, body_of_not_mem hb, hsep, (Text.cut_mark hf query).2,
      List.append_assoc, List.cons_append, (Text.cut_mark hf _).2, Text.after?_cons, Text.after?_cons]
    exact piecesOf_append query q
  · rw [pieces, pieces, query?, query?, hbody, body_of_not_mem hb, separator_of_not_mem hm,
      (Text.cut_mark hm q).2, List.dropWhile_eq_nil_iff.mpr (ne_of_not_mem hm), Text.after?_cons]
    rfl

/-- What is appended to a URL with a fragment ends up in the fragment. -/
theorem append_fragment {base f : Text} (h : fragment? base = some f) (c : CodePoint) (q : Text) :
    path (base ++ c :: q) = path base ∧ query? (base ++ c :: q) = query? base ∧
      fragment? (base ++ c :: q) = some (f ++ c :: q) := by
  have hn : CodePoint.ofChar '#' ∉ body base := by
    intro hm
    rw [body] at hm
    have hd := List.mem_takeWhile_imp hm
    exact of_decide_eq_true hd rfl
  have hurl : base ++ c :: q = body base ++ CodePoint.ofChar '#' :: (f ++ c :: q) := by
    conv => lhs; rw [eq_of_fragment? h]
    rw [List.append_assoc]
    rfl
  rw [hurl, path, query?, body_cut hn, fragment?_cut hn]
  exact ⟨rfl, rfl, rfl⟩

end Url

namespace Request

theorem not_mem_queryString {r : Request} {sort : Option Text} (hb : r.IsBuilt) (hs : ∀ t ∈ sort, t.UrlSafe) :
    CodePoint.ofChar '#' ∉ QueryString.write (r.parts .default sort) := by
  refine QueryString.not_mem_write (by decide) ?_
  intro part hp
  refine ⟨?_, (urlSafe_of_mem_parts hb hs hp).not_mem (by decide)⟩
  obtain ⟨p, hname⟩ := name_of_mem_parts hp
  rw [← hname]
  cases p <;> decide

/-- A query string appended to a URL leaves its path as it is. Where the URL has no fragment the pieces of its
query are followed by those of the query string; where it has one, the query stays and the fragment grows. -/
theorem url_pieces {arguments : Entries} {r : Request} {base q : Text} (h : ofArguments arguments = .ok r)
    (hb : r.IsBuilt) (hq : r.queryString .default = .ok q) (hne : q ≠ []) :
    ∃ url, r.url base .default = .ok url ∧ Url.path url = Url.path base ∧
      (Url.fragment? base = none →
        Url.fragment? url = none ∧ Url.pieces url = Url.pieces base ++ Url.piecesOf q) ∧
      ∀ f, Url.fragment? base = some f →
        Url.query? url = Url.query? base ∧ Url.fragment? url = some (f ++ Url.separator base :: q) := by
  have hv := isValid_of_arguments h
  obtain ⟨sort, _, _, hsafe, hw⟩ := queryString_of_isBuilt hv hb .default
  have hm : CodePoint.ofChar '#' ∉ q := by
    rw [Except.ok.inj (hq.symm.trans hw)]
    exact not_mem_queryString hb hsafe
  have hurl : r.url base .default = .ok (base ++ Url.separator base :: q) := by
    rw [url, hv.extras, hq, ← Url.appendTo_eq base hne]
    rfl
  refine ⟨_, hurl, ?_, ?_, ?_⟩
  · cases hf : Url.fragment? base with
    | none => exact (Url.append_plain (Url.fragment?_eq_none_iff.mp hf) hm).1
    | some f => exact (Url.append_fragment hf _ q).1
  · intro hf
    exact (Url.append_plain (Url.fragment?_eq_none_iff.mp hf) hm).2
  · intro f hf
    exact (Url.append_fragment hf _ q).2

/-- A query of the URL's own with empty pieces, an empty disjunction and a sort specification. -/
theorem url_pieces_rooms :
    let arguments : Entries := [(.text "filter", .text "or()"), (.text "sort", .text "!roomsprice")]
    let r : Request := ⟨some (.text "or()"), some (.text "!roomsprice"), some .null, []⟩
    let base : Text := "/rooms?&x=1&"
    let q : Text := "f=or()&s=!roomsprice"
    let pieces : List Text := ["x=1", "f=or()", "s=!roomsprice"]
    ofArguments arguments = .ok r ∧ r.IsBuilt ∧ r.queryString .default = .ok q ∧ q ≠ [] ∧
      ∃ url, r.url base .default = .ok url ∧ Url.path url = "/rooms" ∧ Url.fragment? url = none ∧
        Url.pieces url = pieces := by
  intro arguments r base q pieces
  have h : ofArguments arguments = .ok r := by with_unfolding_all rfl
  have hq : r.queryString .default = .ok q := by with_unfolding_all rfl
  have hb : r.IsBuilt := by
    refine ⟨?_, ?_, ?_⟩
    · intro t ht
      cases ht
      exact .inl ⟨.any .list [], rfl⟩
    · intro v hv
      cases hv
      have hrooms : IsOrderToken "!rooms" := ⟨[.text "rooms", .bool false], rfl⟩
      have hprice : IsOrderToken "price" := ⟨[.text "price"], rfl⟩
      have ho : ∀ token ∈ [Text.ofString "!rooms", Text.ofString "price"], IsOrderToken token :=
        List.forall_mem_cons.mpr ⟨hrooms, List.forall_mem_singleton.mpr hprice⟩
      exact @IsSort.text .separate _ _ ho rfl
    · intro n hn
      cases hn
  obtain ⟨url, hurl, hp, hplain, _⟩ := @url_pieces arguments r base q h hb hq (by decide)
  obtain ⟨hf, hpieces⟩ := hplain (by decide)
  exact ⟨h, hb, hq, by decide, url, hurl, hp.trans (by decide), hf, hpieces.trans (by decide)⟩

/-- No URL keeps its fragment: the query string is put behind it, where it belongs to the fragment. -/
theorem fragment_not_kept :
    ¬ ∀ (arguments : Entries) (r : Request) (base q : Text), ofArguments arguments = .ok r → r.IsBuilt →
      r.queryString .default = .ok q → q ≠ [] →
        ∃ url, r.url base .default = .ok url ∧ Url.path url = Url.path base ∧
          Url.fragment? url = Url.fragment? base ∧ Url.pieces url = Url.pieces base ++ Url.piecesOf q := by
  intro hall
  let r : Request := ⟨some .null, some .null, some (.int 1), []⟩
  have h : ofArguments [(.text "limit", .int 1)] = .ok r := by with_unfolding_all rfl
  have hb : r.IsBuilt := by
    refine ⟨?_, ?_, ?_⟩
    · intro t ht
      cases ht
    · intro v hv
      cases hv
      exact .null
    · intro n hn
      cases hn
      with_unfolding_all rfl
  have hq : r.queryString .default = .ok "l=1" := by with_unfolding_all rfl
  obtain ⟨url, hurl, _, hf, _⟩ := hall _ r "http://h/p#top" "l=1" h hb hq (by decide)
  have hu : r.url "http://h/p#top" .default = .ok "http://h/p#top?l=1" := by with_unfolding_all rfl
  cases hurl.symm.trans hu
  exact absurd hf (by decide)

end Request

end FilterQuery
