import FilterQuery.Json.Reader
import FilterQuery.Json.Writer
import FilterQuery.Proofs.NumberReading
import FilterQuery.Proofs.Printable

namespace FilterQuery

theorem CodePoint.hexValue?_ofHexLower (d : Fin 16) : (ofHexLower d).hexValue? = some d := by
  revert d
  decide

namespace Json

theorem hex4?_lowerHex (n : Fin 0x10000) :
    ∃ a b c d, lowerHex 4 n.val = [a, b, c, d] ∧ hex4? a b c d = some n := by
  refine ⟨_, _, _, _, rfl, ?_⟩
  simp only [hex4?, CodePoint.hexValue?_ofHexLower, Option.bind_eq_bind, Option.bind_some, Option.pure_def,
    Option.some.injEq, Fin.ext_iff]
  omega

theorem readString_quote (start rest : Text) : readString start (CodePoint.ofChar '"' :: rest) = .ok ([], rest) := by
  rw [readString.eq_def]
  dsimp only
  rw [if_pos rfl]

theorem readString_plain {c : CodePoint} (start rest : Text) (hq : c ≠ CodePoint.ofChar '"')
    (hs : c ≠ CodePoint.ofChar '\\') (hc : ¬ c.val < 0x20) :
    readString start (c :: rest) = consText c (readString start rest) := by
  rw [readString.eq_def]
  dsimp only
  rw [if_neg hq, if_neg hc, if_pos hs]

theorem readString_escaped {e c : CodePoint} (start rest : Text) (hu : e ≠ CodePoint.ofChar 'u')
    (he : escaped? e = some c) :
    readString start (CodePoint.ofChar '\\' :: e :: rest) = consText c (readString start rest) := by
  rw [readString.eq_def]
  dsimp only
  rw [if_neg (by decide), if_neg (by decide), if_neg (by simp), if_pos hu, he]

/-- A unit is the whole code point unless a second one can follow it. -/
theorem readString_single {n : Fin 0x10000} (start : Text) {rest : Text} (hr : rest ≠ [])
    (hn : isHighUnit n = false) :
    readString start (unicodeEscape n.val ++ rest) = consText (loneUnit n) (readString start rest) := by
  obtain ⟨a, b, c, d, ht, hx⟩ := hex4?_lowerHex n
  obtain ⟨next, rest, rfl⟩ := List.exists_cons_of_ne_nil hr
  have hw : unicodeEscape n.val ++ next :: rest =
      CodePoint.ofChar '\\' :: CodePoint.ofChar 'u' :: a :: b :: c :: d :: next :: rest := by
    rw [unicodeEscape, ht]
    rfl
  rw [hw, readString.eq_def]
  dsimp only
  rw [if_neg (by decide), if_neg (by decide), if_neg (by simp), if_neg (by simp)]
  simp only [hx, hn, Bool.false_eq_true, ↓reduceIte]

theorem readString_pair {high low : Fin 0x10000} (start : Text) {rest : Text} (hr : rest ≠ [])
    (hh : isHighUnit high = true) (hl : isLowUnit low = true) :
    readString start (unicodeEscape high.val ++ (unicodeEscape low.val ++ rest)) =
      consText (joinUnits high low) (readString start rest) := by
  obtain ⟨a, b, c, d, ht, hx⟩ := hex4?_lowerHex high
  obtain ⟨a', b', c', d', ht', hx'⟩ := hex4?_lowerHex low
  obtain ⟨next, rest, rfl⟩ := List.exists_cons_of_ne_nil hr
  have hw : unicodeEscape high.val ++ (unicodeEscape low.val ++ next :: rest) =
      CodePoint.ofChar '\\' :: CodePoint.ofChar 'u' :: a :: b :: c :: d ::
        CodePoint.ofChar '\\' :: CodePoint.ofChar 'u' :: a' :: b' :: c' :: d' :: next :: rest := by
    rw [unicodeEscape, unicodeEscape, ht, ht']
    rfl
  have hs : secondUnit? (CodePoint.ofChar '\\' :: CodePoint.ofChar 'u' :: a' :: b' :: c' :: d' :: next :: rest) =
      some (.ok low) := by
    rw [secondUnit?, if_pos ⟨rfl, rfl⟩, hx']
  rw [hw, readString.eq_def]
  dsimp only
  rw [if_neg (by decide), if_neg (by decide), if_neg (by simp), if_neg (by simp)]
  simp only [hx, hh, hs, hl, ↓reduceIte]

/-- The code points that are written as a backslash and a letter, or as a backslash and themselves. -/
def shortEscaped : List CodePoint :=
  [CodePoint.ofChar '"', CodePoint.ofChar '\\', CodePoint.ofChar '\n', CodePoint.ofChar '\r',
    CodePoint.ofChar '\t', CodePoint.ofChar '\x0C', CodePoint.ofChar '\x08']

theorem inJson_short {c : CodePoint} (h : c ∈ shortEscaped) :
    ∃ e, c.inJson = [CodePoint.ofChar '\\', e] ∧ e ≠ CodePoint.ofChar 'u' ∧ escaped? e = some c := by
  simp only [shortEscaped, List.mem_cons, List.not_mem_nil, or_false] at h
  rcases h with rfl | rfl | rfl | rfl | rfl | rfl | rfl <;> exact ⟨_, rfl, by decide, by decide⟩

/-- Without a short escape, what is written depends on the range alone. -/
theorem inJson_long {c : CodePoint} (h : c ∉ shortEscaped) :
    c.inJson = if 0x20 ≤ c.val ∧ c.val ≤ 0x7E then [c]
      else if c.val < 0x10000 then unicodeEscape c.val
      else unicodeEscape (0xD800 + (c.val - 0x10000) / 0x400) ++ unicodeEscape (0xDC00 + c.val % 0x400) := by
  obtain ⟨n, hlt⟩ := c
  simp only [shortEscaped, List.mem_cons, List.not_mem_nil, or_false, not_or] at h
  obtain ⟨hq, hs, hn, hr, ht, hf, hb⟩ := h
  have hf : n ≠ 0x0C := by
    rintro rfl
    exact hf rfl
  have hb : n ≠ 0x08 := by
    rintro rfl
    exact hb rfl
  rw [CodePoint.inJson, if_neg hq, if_neg hs, if_neg hn, if_neg hr, if_neg ht, if_neg hf, if_neg hb]

/-- The ways to write a code point that is no surrogate: a short escape, itself, one unit or two. -/
theorem inJson_cases {c : CodePoint} (hc : c.isSurrogate = false) :
    (∃ e, c.inJson = [CodePoint.ofChar '\\', e] ∧ e ≠ CodePoint.ofChar 'u' ∧ escaped? e = some c) ∨
    (c.inJson = [c] ∧ c ≠ CodePoint.ofChar '"' ∧ c ≠ CodePoint.ofChar '\\' ∧ ¬ c.val < 0x20) ∨
    (∃ n, c.inJson = unicodeEscape n.val ∧ isHighUnit n = false ∧ loneUnit n = c) ∨
    ∃ high low, c.inJson = unicodeEscape high.val ++ unicodeEscape low.val ∧ isHighUnit high = true ∧
      isLowUnit low = true ∧ joinUnits high low = c := by
  by_cases hm : c ∈ shortEscaped
  · exact .inl (inJson_short hm)
  have hw := inJson_long hm
  obtain ⟨n, hlt⟩ := c
  simp only [CodePoint.isSurrogate, Bool.and_eq_false_iff, decide_eq_false_iff_not] at hc
  by_cases hv : 0x20 ≤ n ∧ n ≤ 0x7E
  · rw [if_pos hv] at hw
    simp only [shortEscaped, List.mem_cons, not_or] at hm
    exact .inr (.inl ⟨hw, hm.1, hm.2.1, Nat.not_lt.mpr hv.1⟩)
  rw [if_neg hv] at hw
  by_cases hu : n < 0x10000
  · rw [if_pos hu] at hw
    refine .inr (.inr (.inl ⟨⟨n, hu⟩, hw, ?_, rfl⟩))
    simp only [isHighUnit, Bool.and_eq_false_iff, decide_eq_false_iff_not]
    omega
  · rw [if_neg hu] at hw
    have hh : 0xD800 + (n - 0x10000) / 0x400 < 0x10000 := by omega
    have hl : 0xDC00 + n % 0x400 < 0x10000 := by omega
    refine .inr (.inr (.inr ⟨⟨_, hh⟩, ⟨_, hl⟩, hw, ?_, ?_, ?_⟩))
    · simp only [isHighUnit, Bool.and_eq_true, decide_eq_true_eq]
      omega
    · simp only [isLowUnit, Bool.and_eq_true, decide_eq_true_eq]
      omega
    · simp only [joinUnits, CodePoint.mk.injEq]
      omega

/-- One code point is read back, whichever way it is written, and the reading goes on behind it. -/
theorem readString_inJson {c : CodePoint} (hc : c.isSurrogate = false) (start : Text) {rest : Text}
    (hr : rest ≠ []) : readString start (c.inJson ++ rest) = consText c (readString start rest) := by
  rcases inJson_cases hc with ⟨e, hw, hu, he⟩ | ⟨hw, hq, hs, hc⟩ | ⟨n, hw, hn, he⟩ | ⟨high, low, hw, hh, hl, he⟩
  · rw [hw]
    exact readString_escaped start rest hu he
  · rw [hw]
    exact readString_plain start rest hq hs hc
  · rw [hw, readString_single start hr hn, he]
  · rw [hw, List.append_assoc, readString_pair start hr hh hl, he]

theorem readString_flatMap {t : Text} (ht : t.any CodePoint.isSurrogate = false) (start rest : Text) :
    readString start (t.flatMap CodePoint.inJson ++ CodePoint.ofChar '"' :: rest) = .ok (t, rest) := by
  induction t with
  | nil => exact readString_quote start rest
  | cons c t ih =>
    rw [List.any_cons, Bool.or_eq_false_iff] at ht
    rw [List.flatMap_cons, List.append_assoc, readString_inJson ht.1 start (by simp), ih ht.2]
    rfl

theorem readString_quoted {t : Text} (ht : t.any CodePoint.isSurrogate = false) (rest : Text) :
    ∃ after, quote t ++ rest = CodePoint.ofChar '"' :: after ∧
      ∀ start, readString start after = .ok (t, rest) := by
  refine ⟨t.flatMap CodePoint.inJson ++ CodePoint.ofChar '"' :: rest, ?_, ?_⟩
  · simp only [quote, List.append_assoc]
    rfl
  · intro start
    exact readString_flatMap ht start rest

/-- A number is not continued by what follows it. -/
def Ends (rest : Text) : Prop :=
  ∀ c ∈ rest.head?, c.digit? = none ∧ c ≠ CodePoint.ofChar '.' ∧ c ≠ CodePoint.ofChar 'e' ∧
    c ≠ CodePoint.ofChar 'E'

theorem ends_cons {c : CodePoint} (rest : Text) (hd : c.digit? = none)
    (hc : c ∉ [CodePoint.ofChar '.', CodePoint.ofChar 'e', CodePoint.ofChar 'E']) : Ends (c :: rest) := by
  intro c' hm
  cases hm
  simpa [hd] using hc

theorem Ends.digit? {rest : Text} (h : Ends rest) : rest.head?.all fun c => c.digit?.isNone := by
  cases rest with
  | nil => rfl
  | cons c rest =>
    have hc := (h c rfl).1
    simp [hc]

theorem readWhole?_ofNat (n : Nat) {rest : Text} (hr : Ends rest) :
    readWhole? ((Digits.ofNat n).toText ++ rest) = some ((Digits.ofNat n).toList, rest) := by
  obtain ⟨-, hz⟩ := Digits.isDecimalOf_ofNat n
  generalize Digits.ofNat n = digits at hz
  obtain ⟨d, ds⟩ := digits
  have hs := Digits.span_append (d :: ds) hr.digit?
  rw [List.map_cons, List.cons_append] at hs
  simp only [Digits.toText, Digits.toList, List.map_cons, List.cons_append, readWhole?, CodePoint.digit?_ofDigit]
  split
  · rename_i h
    cases hz h
    rw [h]
    rfl
  · rw [hs]

theorem readFraction_ends {rest : Text} (hr : Ends rest) : readFraction rest = (none, rest) := by
  cases rest with
  | nil => rfl
  | cons c rest =>
    have hc := (hr c rfl).2.1
    rw [readFraction, Text.after?, if_neg hc]
    rfl

theorem readPower_ends {rest : Text} (hr : Ends rest) : readPower rest = (none, rest) := by
  cases rest with
  | nil => rfl
  | cons c rest =>
    have hc := (hr c rfl).2.2
    rw [readPower.eq_def]
    dsimp only
    rw [if_neg (by simp [hc])]

/-- The code points that a whole number begins with. -/
def numberStart : Text := "-0123456789"

theorem exists_cons_ofInt (n : Int) : ∃ c t, Text.ofInt n = c :: t ∧ c ∈ numberStart := by
  have hd : ∀ d : Fin 10, CodePoint.ofDigit d ∈ numberStart := by decide
  rw [Text.ofInt_eq]
  cases decide (n < 0) with
  | false => exact ⟨_, _, rfl, hd _⟩
  | true => exact ⟨'-', _, rfl, by decide⟩

theorem readNumber_ofInt {n : Int} (hn : (Value.int n).isPrintable) {rest : Text} (hr : Ends rest) :
    readNumber (Text.ofInt n ++ rest) = .ok (int n, rest) := by
  have hv : Digits.valueOf (Digits.ofNat n.natAbs).toList = n.natAbs := (Digits.isDecimalOf_ofNat _).1
  have hd : ¬ Number.digitLimit < (Digits.ofNat n.natAbs).toList.length := Nat.not_lt.mpr (of_decide_eq_true hn)
  rw [Text.ofInt_eq, List.append_assoc, readNumber, Numeral.readSign_sign]
  dsimp only
  rw [readWhole?_ofNat _ hr]
  dsimp only
  rw [readFraction_ends hr, readPower_ends hr]
  dsimp only
  rw [if_neg hd, hv, Number.signed_natAbs]

/-- No word for a value begins like a whole number, but the one that begins with a minus. -/
theorem readWord?_ofInt (n : Int) (rest : Text) : readWord? (Text.ofInt n ++ rest) = none := by
  rw [Text.ofInt_eq, List.append_assoc, readWord?, List.findSome?_eq_none_iff]
  rintro ⟨word, value⟩ hm
  dsimp only
  rw [if_neg]
  intro hp
  obtain ⟨after, ha⟩ := List.isPrefixOf_iff_prefix.mp hp
  have hne {c : CodePoint} {t : Text} (hd : c.digit? = none) (hc : c ≠ CodePoint.ofChar '-') :=
    Numeral.decimalText_ne (n < 0) (Digits.ofNat n.natAbs) rest (t := t) hd hc
  simp only [words, List.mem_cons, Prod.mk.injEq, List.not_mem_nil, or_false] at hm
  rcases hm with ⟨rfl, -⟩ | ⟨rfl, -⟩ | ⟨rfl, -⟩ | ⟨rfl, -⟩ | ⟨rfl, -⟩ | ⟨rfl, -⟩
  · exact hne (c := 'n') (by decide) (by decide) ha.symm
  · exact hne (c := 't') (by decide) (by decide) ha.symm
  · exact hne (c := 'f') (by decide) (by decide) ha.symm
  · exact hne (c := 'N') (by decide) (by decide) ha.symm
  · exact hne (c := 'I') (by decide) (by decide) ha.symm
  · cases hs : decide (n < 0) with
    | false =>
      rw [hs] at ha
      exact Digits.ofDigit_ne (c := '-') (by decide) (List.cons.inj ha).1.symm
    | true =>
      rw [hs] at ha
      exact Digits.ofDigit_ne (c := 'I') (by decide) (List.cons.inj (List.cons.inj ha).2).1.symm

mutual

/-- No float is in a document, no whole number of too many digits and no surrogate. -/
def isPlain : Json → Bool
  | null => true
  | bool _ => true
  | int n => (Value.int n).isPrintable
  | float _ => false
  | text t => !t.any CodePoint.isSurrogate
  | array items => arePlain items
  | object members => areMembersPlain members

def arePlain : List Json → Bool
  | [] => true
  | j :: js => isPlain j && arePlain js

def areMembersPlain : List (Text × Json) → Bool
  | [] => true
  | (name, j) :: rest => !name.any CodePoint.isSurrogate && isPlain j && areMembersPlain rest

end

/-- The first code point of a document's text: no blank, no closing bracket and no mark of the byte order. -/
theorem exists_cons_toText {j : Json} (h : j.isPlain) :
    ∃ c t, j.toText = c :: t ∧ isBlank c = false ∧ c ≠ CodePoint.ofChar ']' ∧ c.val ≠ 0xFEFF := by
  cases j with
  | null => exact ⟨'n', _, rfl, by decide, by decide, by decide⟩
  | bool b =>
    cases b with
    | false => exact ⟨'f', _, rfl, by decide, by decide, by decide⟩
    | true => exact ⟨'t', _, rfl, by decide, by decide, by decide⟩
  | float x => contradiction
  | text t => exact ⟨'"', _, rfl, by decide, by decide, by decide⟩
  | array items => exact ⟨'[', _, rfl, by decide, by decide, by decide⟩
  | object members => exact ⟨'\x7b', _, rfl, by decide, by decide, by decide⟩
  | int n =>
    have hs : ∀ c ∈ numberStart, isBlank c = false ∧ c ≠ CodePoint.ofChar ']' ∧ c.val ≠ 0xFEFF := by decide
    obtain ⟨c, t, ht, hc⟩ := exists_cons_ofInt n
    exact ⟨c, t, ht, hs c hc⟩

theorem skipBlank_toText {j : Json} (h : j.isPlain) (rest : Text) :
    skipBlank (j.toText ++ rest) = j.toText ++ rest := by
  obtain ⟨c, t, ht, hc, -⟩ := exists_cons_toText h
  rw [ht, List.cons_append, skipBlank, List.dropWhile_cons, hc]
  rfl

theorem readValue_word {fuel : Nat} {c : CodePoint} {t rest : Text} {j : Json}
    (hw : readWord? (c :: t) = some (j, rest)) (hq : c ≠ CodePoint.ofChar '"')
    (ho : c ≠ CodePoint.ofChar '\x7b') (ha : c ≠ CodePoint.ofChar '[') :
    readValue (fuel + 1) (c :: t) = .ok (j, rest) := by
  rw [readValue]
  rw [if_neg hq, if_neg ho, if_neg ha, hw]

theorem readValue_ofInt {n : Int} (hn : (Value.int n).isPrintable) {rest : Text} (hr : Ends rest) (fuel : Nat) :
    readValue (fuel + 1) (Text.ofInt n ++ rest) = .ok (int n, rest) := by
  have hw := readWord?_ofInt n rest
  have hv := readNumber_ofInt hn hr
  have hs : ∀ c ∈ numberStart, c ≠ CodePoint.ofChar '"' ∧ c ≠ CodePoint.ofChar '\x7b' ∧
      c ≠ CodePoint.ofChar '[' := by decide
  obtain ⟨c, t, ht, hc⟩ := exists_cons_ofInt n
  obtain ⟨hq, ho, ha⟩ := hs c hc
  rw [ht, List.cons_append] at hw hv ⊢
  rw [readValue]
  rw [if_neg hq, if_neg ho, if_neg ha, hw]
  exact hv

theorem readValue_quote {t : Text} (ht : t.any CodePoint.isSurrogate = false) (rest : Text) (fuel : Nat) :
    readValue (fuel + 1) (quote t ++ rest) = .ok (text t, rest) := by
  obtain ⟨after, hq, hs⟩ := readString_quoted ht rest
  rw [hq, readValue]
  rw [if_pos rfl, hs]
  rfl

/-- The text of a document is not empty. -/
theorem length_toText_pos {j : Json} (h : j.isPlain) : 0 < j.toText.length := by
  obtain ⟨c, t, ht, -⟩ := exists_cons_toText h
  rw [ht]
  exact Nat.zero_lt_succ _

theorem join_items (j j' : Json) (js : List Json) : Text.join ", " (itemTexts (j :: j' :: js)) =
    j.toText ++ CodePoint.ofChar ',' :: CodePoint.ofChar ' ' :: Text.join ", " (itemTexts (j' :: js)) := by
  simp only [itemTexts, Text.join, List.append_assoc]
  rfl

theorem join_member (name : Text) (j : Json) : Text.join ", " (memberTexts [(name, j)]) =
    quote name ++ CodePoint.ofChar ':' :: CodePoint.ofChar ' ' :: j.toText := by
  simp only [memberTexts, Text.join, List.append_assoc]
  rfl

theorem join_members (name : Text) (j : Json) (member : Text × Json) (members : List (Text × Json)) :
    Text.join ", " (memberTexts ((name, j) :: member :: members)) =
      quote name ++ CodePoint.ofChar ':' :: CodePoint.ofChar ' ' :: (j.toText ++ CodePoint.ofChar ',' ::
        CodePoint.ofChar ' ' :: Text.join ", " (memberTexts (member :: members))) := by
  simp only [memberTexts, Text.join, List.append_assoc]
  rfl

theorem skipBlank_items {j : Json} {js : List Json} (h : arePlain (j :: js)) (rest : Text) :
    skipBlank (Text.join ", " (itemTexts (j :: js)) ++ rest) =
      Text.join ", " (itemTexts (j :: js)) ++ rest := by
  simp only [arePlain, Bool.and_eq_true] at h
  cases js with
  | nil => exact skipBlank_toText h.1 rest
  | cons j' js =>
    rw [join_items, List.append_assoc]
    exact skipBlank_toText h.1 _

theorem skipBlank_members (member : Text × Json) (members : List (Text × Json)) (rest : Text) :
    skipBlank (Text.join ", " (memberTexts (member :: members)) ++ rest) =
      Text.join ", " (memberTexts (member :: members)) ++ rest := by
  cases members with
  | nil =>
    rw [join_member]
    rfl
  | cons member' members =>
    rw [join_members]
    rfl

/-- A list with items does not end where it begins. -/
theorem after?_items {j : Json} {js : List Json} (h : arePlain (j :: js)) (rest : Text) :
    Text.after? ']' (Text.join ", " (itemTexts (j :: js)) ++ rest) = none := by
  simp only [arePlain, Bool.and_eq_true] at h
  obtain ⟨c, t, ht, -, hc, -⟩ := exists_cons_toText h.1
  cases js with
  | nil =>
    rw [itemTexts, itemTexts, Text.join, ht, List.cons_append, Text.after?, if_neg hc]
  | cons j' js =>
    rw [join_items, ht, List.cons_append, List.cons_append, Text.after?, if_neg hc]

theorem after?_members (member : Text × Json) (members : List (Text × Json)) (rest : Text) :
    Text.after? '\x7d' (Text.join ", " (memberTexts (member :: members)) ++ rest) = none := by
  cases members with
  | nil =>
    rw [join_member]
    rfl
  | cons member' members =>
    rw [join_members]
    rfl

/-- A name and its value are read, and what stands behind them decides whether more members follow. -/
theorem readMembers_named {name : Text} (hn : name.any CodePoint.isSurrogate = false) {j : Json} (hj : j.isPlain)
    {after : Text} {fuel : Nat} (hv : readValue fuel (j.toText ++ after) = .ok (j, after)) :
    readMembers (fuel + 1) (quote name ++ CodePoint.ofChar ':' :: CodePoint.ofChar ' ' :: (j.toText ++ after)) =
      match Text.after? '\x7d' (skipBlank after) with
      | some rest => .ok ([(name, j)], rest)
      | none => do
        let rest ← expect ',' .expectingComma (skipBlank after)
        let (members, rest) ← readMembers fuel (skipBlank rest)
        return ((name, j) :: members, rest) := by
  obtain ⟨quoted, hq, hs⟩ := readString_quoted hn
    (CodePoint.ofChar ':' :: CodePoint.ofChar ' ' :: (j.toText ++ after))
  have he : expect '"' .expectingName (CodePoint.ofChar '"' :: quoted) = .ok quoted := rfl
  have hc : expect ':' .expectingColon (skipBlank (CodePoint.ofChar ':' :: CodePoint.ofChar ' ' ::
      (j.toText ++ after))) = .ok (CodePoint.ofChar ' ' :: (j.toText ++ after)) := rfl
  have hb : skipBlank (CodePoint.ofChar ' ' :: (j.toText ++ after)) = j.toText ++ after :=
    skipBlank_toText hj after
  simp only [hq, readMembers, he, hs, hc, hb, hv, bind, Except.bind]
  rfl

mutual

-- Of the fuel two are taken for a code point: an item takes one for itself and one for its place in the list.
theorem readValue_toText {j : Json} (h : j.isPlain) {rest : Text} (hr : Ends rest) {fuel : Nat}
    (hf : 2 * j.toText.length ≤ fuel) : readValue fuel (j.toText ++ rest) = .ok (j, rest) := by
  have hp := length_toText_pos h
  have hz : fuel ≠ 0 := by omega
  obtain ⟨fuel, rfl⟩ := Nat.exists_eq_succ_of_ne_zero hz
  match j with
  | null => exact readValue_word rfl (by decide) (by decide) (by decide)
  | bool true => exact readValue_word rfl (by decide) (by decide) (by decide)
  | bool false => exact readValue_word rfl (by decide) (by decide) (by decide)
  | int n => exact readValue_ofInt h hr fuel
  | float x => contradiction
  | text t => exact readValue_quote (by simpa [isPlain] using h) rest fuel
  | array [] => rfl
  | object [] => rfl
  | array (j :: js) =>
    rw [isPlain] at h
    have ht : (array (j :: js)).toText ++ rest = CodePoint.ofChar '[' ::
        (Text.join ", " (itemTexts (j :: js)) ++ CodePoint.ofChar ']' :: rest) := by
      simp only [toText, List.append_assoc]
      rfl
    have hl : (array (j :: js)).toText.length = (Text.join ", " (itemTexts (j :: js))).length + 2 := by
      have := congrArg List.length ht
      simp only [List.length_append, List.length_cons] at this
      omega
    have hi : readItems fuel (Text.join ", " (itemTexts (j :: js)) ++ CodePoint.ofChar ']' :: rest) =
        .ok (j :: js, rest) := readItems_join h rest (by omega)
    rw [ht, readValue]
    rw [if_neg (by decide), if_neg (by decide), if_pos rfl, skipBlank_items h, after?_items h, hi]
    rfl
  | object (member :: members) =>
    rw [isPlain] at h
    have ht : (object (member :: members)).toText ++ rest = CodePoint.ofChar '\x7b' ::
        (Text.join ", " (memberTexts (member :: members)) ++ CodePoint.ofChar '\x7d' :: rest) := by
      simp only [toText, List.append_assoc]
      rfl
    have hl : (object (member :: members)).toText.length =
        (Text.join ", " (memberTexts (member :: members))).length + 2 := by
      have := congrArg List.length ht
      simp only [List.length_append, List.length_cons] at this
      omega
    have hm : readMembers fuel (Text.join ", " (memberTexts (member :: members)) ++
        CodePoint.ofChar '\x7d' :: rest) = .ok (member :: members, rest) := readMembers_join h rest (by omega)
    rw [ht, readValue]
    rw [if_neg (by decide), if_pos rfl, skipBlank_members, after?_members, hm]
    rfl
termination_by fuel

theorem readItems_join {j : Json} {js : List Json} (h : arePlain (j :: js)) (rest : Text) {fuel : Nat}
    (hf : 2 * (Text.join ", " (itemTexts (j :: js))).length + 1 ≤ fuel) :
    readItems fuel (Text.join ", " (itemTexts (j :: js)) ++ CodePoint.ofChar ']' :: rest) =
      .ok (j :: js, rest) := by
  have hz : fuel ≠ 0 := by omega
  obtain ⟨fuel, rfl⟩ := Nat.exists_eq_succ_of_ne_zero hz
  rw [readItems]
  rw [arePlain, Bool.and_eq_true] at h
  match js with
  | [] =>
    simp only [itemTexts, Text.join] at hf ⊢
    rw [readValue_toText h.1 (ends_cons _ rfl (by decide)) (by omega)]
    rfl
  | j' :: js =>
    rw [join_items] at hf ⊢
    simp only [List.length_append, List.length_cons] at hf
    rw [List.append_assoc, List.cons_append, readValue_toText h.1 (ends_cons _ rfl (by decide)) (by omega)]
    change (readItems fuel (skipBlank (Text.join ", " (itemTexts (j' :: js)) ++ CodePoint.ofChar ']' :: rest)) >>=
      fun read => pure (j :: read.1, read.2)) = _
    rw [skipBlank_items h.2, readItems_join h.2 rest (by omega)]
    rfl
termination_by fuel

theorem readMembers_join {member : Text × Json} {members : List (Text × Json)}
    (h : areMembersPlain (member :: members)) (rest : Text) {fuel : Nat}
    (hf : 2 * (Text.join ", " (memberTexts (member :: members))).length + 1 ≤ fuel) :
    readMembers fuel (Text.join ", " (memberTexts (member :: members)) ++ CodePoint.ofChar '\x7d' :: rest) =
      .ok (member :: members, rest) := by
  have hz : fuel ≠ 0 := by omega
  obtain ⟨fuel, rfl⟩ := Nat.exists_eq_succ_of_ne_zero hz
  obtain ⟨name, j⟩ := member
  simp only [areMembersPlain, Bool.and_eq_true, Bool.not_eq_true'] at h
  obtain ⟨⟨hn, hj⟩, hm⟩ := h
  match members with
  | [] =>
    rw [join_member] at hf ⊢
    simp only [List.length_append, List.length_cons] at hf
    have hv : readValue fuel (j.toText ++ CodePoint.ofChar '\x7d' :: rest) =
        .ok (j, CodePoint.ofChar '\x7d' :: rest) := readValue_toText hj (ends_cons _ rfl (by decide)) (by omega)
    rw [List.append_assoc, List.cons_append, List.cons_append, readMembers_named hn hj hv]
    rfl
  | member' :: members =>
    rw [join_members] at hf ⊢
    simp only [List.length_append, List.length_cons] at hf
    let more := Text.join ", " (memberTexts (member' :: members)) ++ CodePoint.ofChar '\x7d' :: rest
    have hv : readValue fuel (j.toText ++ CodePoint.ofChar ',' :: CodePoint.ofChar ' ' :: more) =
        .ok (j, CodePoint.ofChar ',' :: CodePoint.ofChar ' ' :: more) :=
      readValue_toText hj (ends_cons _ rfl (by decide)) (by omega)
    have hm : readMembers fuel more = .ok (member' :: members, rest) := readMembers_join hm rest (by omega)
    rw [List.append_assoc, List.cons_append, List.cons_append, List.append_assoc, List.cons_append,
      List.cons_append, readMembers_named hn hj hv]
    change (readMembers fuel (skipBlank more) >>= fun read => pure ((name, j) :: read.1, read.2)) = _
    rw [skipBlank_members, hm]
    rfl
termination_by fuel

end

/-- What is written for a document is read as that document. -/
theorem parse_toText {j : Json} (h : j.isPlain) : parse j.toText = .ok j := by
  obtain ⟨c, t, ht, -, -, hc⟩ := exists_cons_toText h
  have hb : j.toText.head?.any (·.val = 0xFEFF) = false := by
    rw [ht]
    simp [hc]
  have hs := skipBlank_toText h []
  have he : Ends [] := nofun
  have hv : readValue (2 * j.toText.length + 1) (j.toText ++ []) = .ok (j, []) :=
    readValue_toText h he (by omega)
  rw [List.append_nil] at hs hv
  rw [parse, if_neg (by simp [hb]), hs, hv]
  rfl

end Json

end FilterQuery
