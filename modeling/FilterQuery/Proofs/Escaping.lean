import FilterQuery.Proofs.Percent
import Mathlib.Data.List.Basic

namespace FilterQuery

namespace Byte

theorem val_lt_codePoints (b : Byte) : b.val < 0x110000 := Nat.lt_trans b.isLt (by decide)

/-- The code point of the same number. -/
def codePoint (b : Byte) : CodePoint := ⟨b.val, b.val_lt_codePoints⟩

def isUnreserved (b : Byte) : Bool := b.codePoint.isUnreserved

/-- A byte as it stands in an escaped text. -/
def escape (b : Byte) : Text := if b.isUnreserved then [b.codePoint] else b.percent

theorem escape_unreserved {b : Byte} (h : b.isUnreserved) : b.escape = [b.codePoint] := if_pos h

theorem escape_reserved {b : Byte} (h : b.isUnreserved = false) : b.escape = b.percent := by
  rw [escape, h, if_neg Bool.false_ne_true]

theorem isUnreserved_of_le {b : Byte} (h : 0x80 ≤ b.val) : b.isUnreserved = false := by
  rw [Bool.eq_false_iff]
  intro hu
  have hl := CodePoint.val_lt_of_isUnreserved hu
  simp only [codePoint] at hl
  omega

end Byte

namespace CodePoint

theorem utf8_of_lt {c : CodePoint} (h : c.val < 0x80) : c.utf8 = [⟨c.val, Nat.lt_trans h (by decide)⟩] := by
  rw [utf8, dif_pos h]

/-- Past ASCII every byte of a code point has its high bit. -/
theorem le_of_mem_utf8 {c : CodePoint} (h : ¬c.val < 0x80) {b : Byte} (hb : b ∈ c.utf8) : 0x80 ≤ b.val := by
  rw [utf8, dif_neg h] at hb
  split at hb
  · simp only [List.mem_cons, List.not_mem_nil, or_false] at hb
    rcases hb with rfl | rfl <;> simp only <;> omega
  split at hb
  · simp only [List.mem_cons, List.not_mem_nil, or_false] at hb
    rcases hb with rfl | rfl | rfl <;> simp only <;> omega
  · simp only [List.mem_cons, List.not_mem_nil, or_false] at hb
    rcases hb with rfl | rfl | rfl | rfl <;> simp only <;> omega

theorem utf8_ne_nil (c : CodePoint) : c.utf8 ≠ [] := by
  unfold utf8
  split
  · simp
  split
  · simp
  split
  · simp
  · simp

/-- The bytes of a code point are escaped one by one: past ASCII none of them is unreserved. -/
theorem escape_eq_flatMap (c : CodePoint) : c.escape = c.utf8.flatMap Byte.escape := by
  by_cases hv : c.val < 0x80
  · rw [escape, utf8_of_lt hv, List.flatMap_singleton, List.flatMap_singleton]
    rfl
  · have hu : ¬c.isUnreserved := fun hu => hv (val_lt_of_isUnreserved hu)
    rw [escape, if_neg hu]
    apply List.flatMap_congr
    intro b hb
    exact (Byte.escape_reserved (Byte.isUnreserved_of_le (le_of_mem_utf8 hv hb))).symm

/-- Whatever is not unreserved takes a triple at least. -/
theorem length_escape {c : CodePoint} (h : ¬c.isUnreserved) : 3 ≤ c.escape.length := by
  rw [escape, if_neg h]
  obtain ⟨b, bs, hb⟩ := List.exists_cons_of_ne_nil c.utf8_ne_nil
  simp only [hb, List.flatMap_cons, List.length_append, Byte.percent, List.length_cons]
  omega

end CodePoint

namespace Text

/-- Bytes as an escaped text. -/
def ofBytes (bs : List Byte) : Text := bs.flatMap Byte.escape

/-- Both parentheses made into triples, wherever they stand. -/
def withoutParentheses (t : Text) : Text := substitute ')' "%29" (substitute '(' "%28" t)

/-- Unreserved code points and triples of all other bytes. -/
inductive IsCanonical : Text → Prop
  | nil : IsCanonical []
  | plain {c : CodePoint} {t : Text} (hc : c.isUnreserved) (ht : IsCanonical t) : IsCanonical (c :: t)
  | triple {b : Byte} {t : Text} (hb : b.isUnreserved = false) (ht : IsCanonical t) :
      IsCanonical (b.percent ++ t)

theorem escape_eq_ofBytes (t : Text) : t.escape = ofBytes (Utf8.encode t) := by
  rw [escape, ofBytes, Utf8.encode, List.flatMap_assoc]
  apply List.flatMap_congr
  intro c _
  exact c.escape_eq_flatMap

theorem isCanonical_ofBytes (bs : List Byte) : IsCanonical (ofBytes bs) := by
  induction bs with
  | nil => exact .nil
  | cons b bs ih =>
    rw [ofBytes, List.flatMap_cons]
    cases hb : b.isUnreserved with
    | true =>
      rw [Byte.escape_unreserved hb]
      exact .plain hb ih
    | false =>
      rw [Byte.escape_reserved hb]
      exact .triple hb ih

/-- Bytes have no other canonical spelling. -/
theorem IsCanonical.eq_ofBytes {t : Text} (ht : IsCanonical t) {bs : List Byte}
    (h : escapedBytes? t = some bs) : t = ofBytes bs := by
  induction ht generalizing bs with
  | nil =>
    cases h
    rfl
  | @plain c t hc _ ih =>
    have hl := CodePoint.val_lt_of_isUnreserved hc
    rw [escapedBytes?_plain (b := ⟨c.val, by omega⟩) hc rfl] at h
    obtain ⟨bs, hbs, rfl⟩ := Option.map_eq_some_iff.mp h
    rw [ofBytes, List.flatMap_cons, Byte.escape_unreserved (b := ⟨c.val, by omega⟩) hc]
    exact congrArg (c :: ·) (ih hbs)
  | @triple b t hb _ ih =>
    rw [escapedBytes?_percent] at h
    obtain ⟨bs, hbs, rfl⟩ := Option.map_eq_some_iff.mp h
    rw [ofBytes, List.flatMap_cons, Byte.escape_reserved hb]
    exact congrArg (b.percent ++ ·) (ih hbs)

/-- A canonical text that reads as `s` is the one that `s` is escaped to. -/
theorem escape_eq_iff {s t : Text} : s.escape = t ↔ IsCanonical t ∧ unescape? t = some s := by
  constructor
  · rintro rfl
    refine ⟨?_, unescape?_eq_some_iff.mpr (escapes_escape s)⟩
    rw [escape_eq_ofBytes]
    exact isCanonical_ofBytes _
  · rintro ⟨ht, hs⟩
    obtain ⟨bs, hbs, hd⟩ := Option.bind_eq_some_iff.mp hs
    rw [ht.eq_ofBytes hbs, Utf8.decode?_eq_some_iff.mp hd]
    exact escape_eq_ofBytes s

theorem escape_injective : Function.Injective escape := by
  intro s t h
  have hs := (escape_eq_iff.mp (Eq.refl s.escape)).2
  rw [h, (escape_eq_iff.mp (Eq.refl t.escape)).2] at hs
  exact (Option.some.inj hs).symm

theorem length_le_escape (s : Text) : s.length ≤ s.escape.length := by
  induction s with
  | nil => exact Nat.le_refl 0
  | cons c s ih =>
    have hc : 1 ≤ c.escape.length := by
      by_cases hu : c.isUnreserved
      · simp [CodePoint.escape, hu]
      · have := CodePoint.length_escape hu
        omega
    change (c :: s).length ≤ (c.escape ++ escape s).length
    rw [List.length_cons, List.length_append]
    omega

/-- Only unreserved code points survive: all others make the text longer. -/
theorem escape_eq_self_iff {s : Text} : s.escape = s ↔ ∀ c ∈ s, c.isUnreserved := by
  induction s with
  | nil => exact ⟨fun _ => List.forall_mem_nil _, fun _ => rfl⟩
  | cons c s ih =>
    rw [List.forall_mem_cons, ← ih]
    change c.escape ++ escape s = c :: s ↔ _
    constructor
    · intro h
      by_cases hu : c.isUnreserved
      · rw [CodePoint.escape, if_pos hu] at h
        exact ⟨hu, (List.cons.inj h).2⟩
      · have hl := congrArg List.length h
        have hc := CodePoint.length_escape hu
        have hs := length_le_escape s
        rw [List.length_append, List.length_cons] at hl
        omega
    · rintro ⟨hu, hs⟩
      rw [CodePoint.escape, if_pos hu, hs]
      rfl

theorem substitute_append (old : CodePoint) (new s t : Text) :
    substitute old new (s ++ t) = substitute old new s ++ substitute old new t := List.flatMap_append

theorem substitute_of_not_mem {old : CodePoint} {t : Text} (h : old ∉ t) (new : Text) :
    substitute old new t = t := by
  have hc : ∀ c ∈ t, (if c = old then new else [c]) = [c] := by
    intro c hc
    rw [if_neg]
    rintro rfl
    exact h hc
  rw [substitute, List.flatMap_congr hc, List.flatMap_singleton']

/-- Escaping leaves no parenthesis, so that there is none to be made into a triple. -/
theorem withoutParentheses_escape (s : Text) : withoutParentheses s.escape = s.escape := by
  have ha := s.escapes_escape.atomic
  rw [withoutParentheses, substitute_of_not_mem (ha.not_mem (by decide)),
    substitute_of_not_mem (ha.not_mem (by decide))]

/-- Escaping is a bijection from the texts to the canonical texts that read as one. It comes to writing the bytes
one by one and then seeing to parentheses, and keeps exactly the texts that are unreserved throughout. -/
theorem escape_bijection :
    (∀ s t : Text, s.escape = t ↔ IsCanonical t ∧ unescape? t = some s) ∧
      Function.Injective escape ∧
      (∀ s : Text, s.escape = s ↔ ∀ c ∈ s, c.isUnreserved) ∧
      ∀ s : Text, s.escape = withoutParentheses (ofBytes (Utf8.encode s)) := by
  refine ⟨fun s t => escape_eq_iff, escape_injective, fun s => escape_eq_self_iff, ?_⟩
  intro s
  rw [← escape_eq_ofBytes, withoutParentheses_escape]

end Text

end FilterQuery
