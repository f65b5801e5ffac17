import FilterQuery.Proofs.Utf8
import FilterQuery.Text.Percent

namespace FilterQuery

namespace CodePoint

def isDelimiter (c : CodePoint) : Bool := c = '(' || c = ')' || c = ','

/-- The code points that fields and literals are written with. -/
def isAtomic (c : CodePoint) : Bool := c.isUnreserved || c = '%' || c = '$' || c = ':' || c = '+'

theorem val_lt_of_isUnreserved {c : CodePoint} (h : c.isUnreserved) : c.val < 0x80 := by
  simp only [isUnreserved, isAsciiUpper, isAsciiLower, isAsciiDigit, Bool.or_eq_true, Bool.and_eq_true,
    decide_eq_true_eq] at h
  rcases h with ((((((h | h) | h) | h) | h) | h) | h)
  · omega
  · omega
  · omega
  all_goals subst h; decide

theorem isAtomic_of_isUnreserved {c : CodePoint} (h : c.isUnreserved) : c.isAtomic := by
  simp only [isAtomic, h, Bool.true_or]

theorem isDelimiter_of_isAtomic {c : CodePoint} (h : c.isAtomic) : c.isDelimiter = false := by
  cases hd : c.isDelimiter with
  | false => rfl
  | true =>
    simp only [isDelimiter, Bool.or_eq_true, decide_eq_true_eq] at hd
    rcases hd with ((rfl | rfl) | rfl)
    all_goals revert h; decide

end CodePoint

namespace Text

/-- A text that no delimiter cuts. -/
def Atomic (t : Text) : Prop := ∀ c ∈ t, c.isAtomic

instance (t : Text) : Decidable (Atomic t) := inferInstanceAs (Decidable (∀ c ∈ t, c.isAtomic))

theorem Atomic.append {s t : Text} (hs : Atomic s) (ht : Atomic t) : Atomic (s ++ t) := by
  intro c hc
  rcases List.mem_append.mp hc with hc | hc
  · exact hs c hc
  · exact ht c hc

theorem Atomic.cons {c : CodePoint} {t : Text} (hc : c.isAtomic) (ht : Atomic t) : Atomic (c :: t) := by
  intro d hd
  rcases List.mem_cons.mp hd with rfl | hd
  · exact hc
  · exact ht d hd

theorem Atomic.not_mem {c : CodePoint} {t : Text} (ht : Atomic t) (hc : c.isDelimiter) : c ∉ t := by
  intro hm
  rw [CodePoint.isDelimiter_of_isAtomic (ht c hm)] at hc
  contradiction

/-- A text and the bytes it spells: an unreserved code point for itself, a percent sign and two digits for
any byte. -/
inductive Spells : Text → List Byte → Prop
  | nil : Spells [] []
  | plain {c : CodePoint} {b : Byte} {t : Text} {bs : List Byte} (hc : c.isUnreserved)
      (hb : c.val = b.val) (ht : Spells t bs) : Spells (c :: t) (b :: bs)
  | percent (b : Byte) {t : Text} {bs : List Byte} (ht : Spells t bs) :
      Spells (b.percent ++ t) (b :: bs)

/-- An escaped text and the text it stands for. -/
def Escapes (e t : Text) : Prop := Spells e (Utf8.encode t)

theorem Spells.append {s t : Text} {as bs : List Byte} (hs : Spells s as) (ht : Spells t bs) :
    Spells (s ++ t) (as ++ bs) := by
  induction hs with
  | nil => exact ht
  | plain hc hb _ ih => exact .plain hc hb ih
  | percent b _ ih =>
    rw [List.append_assoc]
    exact .percent b ih

theorem spells_percents (bs : List Byte) : Spells (bs.flatMap Byte.percent) bs := by
  induction bs with
  | nil => exact .nil
  | cons b bs ih => exact .percent b ih

theorem escapes_escape (t : Text) : Escapes t.escape t := by
  induction t with
  | nil => exact .nil
  | cons c t ih =>
    rw [Escapes, escape, Utf8.encode, List.flatMap_cons, List.flatMap_cons]
    refine Spells.append ?_ ih
    rw [CodePoint.escape]
    split
    · rename_i hc
      have hv := CodePoint.val_lt_of_isUnreserved hc
      rw [CodePoint.utf8, dif_pos hv]
      exact .plain hc rfl .nil
    · exact spells_percents c.utf8

theorem isUnreserved_ofHexUpper (d : Fin 16) : (CodePoint.ofHexUpper d).isUnreserved := by
  revert d
  decide

theorem Spells.atomic {t : Text} {bs : List Byte} (h : Spells t bs) : Atomic t := by
  induction h with
  | nil => exact (by decide : Atomic [])
  | plain hc _ _ ih => exact ih.cons (CodePoint.isAtomic_of_isUnreserved hc)
  | percent b _ ih =>
    refine Atomic.append ?_ ih
    refine .cons (by decide) (.cons ?_ (.cons ?_ (by decide)))
    all_goals exact CodePoint.isAtomic_of_isUnreserved (isUnreserved_ofHexUpper _)

theorem Escapes.atomic {e t : Text} (h : Escapes e t) : Atomic e := Spells.atomic h

theorem upperHexValue?_eq_some_iff {c : CodePoint} {d : Fin 16} :
    upperHexValue? c = some d ↔ c = CodePoint.ofHexUpper d := by
  constructor
  · intro h
    obtain ⟨n, hn⟩ := c
    simp only [upperHexValue?, CodePoint.isAsciiLower, CodePoint.hexValue?, Bool.and_eq_true,
      decide_eq_true_eq] at h
    simp only [CodePoint.ofHexUpper]
    split at h
    · contradiction
    split at h
    · cases h
      rw [if_pos (by simp only; omega)]
      simp only [CodePoint.mk.injEq]
      omega
    split at h
    · cases h
      rw [if_neg (by simp only; omega)]
      simp only [CodePoint.mk.injEq]
      omega
    split at h
    · omega
    · contradiction
  · rintro rfl
    revert d
    decide

theorem escapedBytes?_percent (b : Byte) (t : Text) :
    escapedBytes? (b.percent ++ t) = (escapedBytes? t).map (b :: ·) := by
  have hv : b.val / 16 * 16 + b.val % 16 = b.val := by omega
  simp only [Byte.percent, List.cons_append, List.nil_append, escapedBytes?, if_pos,
    upperHexValue?_eq_some_iff.mpr rfl, Option.bind_eq_bind, Option.bind_some, hv]
  cases escapedBytes? t <;> rfl

theorem escapedBytes?_plain {c : CodePoint} {b : Byte} (hc : c.isUnreserved) (hb : c.val = b.val)
    (t : Text) : escapedBytes? (c :: t) = (escapedBytes? t).map (b :: ·) := by
  have hp : c ≠ CodePoint.ofChar '%' := by
    rintro rfl
    revert hc
    decide
  have hl : c.val < 256 := hb ▸ b.isLt
  have he : (⟨c.val, hl⟩ : Byte) = b := Fin.ext hb
  rw [escapedBytes?.eq_def]
  simp only [if_neg hp, if_pos hc, dif_pos hl, he]
  cases escapedBytes? t <;> rfl

theorem percent_hex {b : Byte} {high low : Fin 16} (hb : b.val = high.val * 16 + low.val) :
    b.percent = [CodePoint.ofChar '%', CodePoint.ofHexUpper high, CodePoint.ofHexUpper low] := by
  have hh : b.val / 16 = high.val := by omega
  have hl : b.val % 16 = low.val := by omega
  simp only [Byte.percent, hh, hl]

/-- The reader takes the texts that spell bytes, and no others. -/
theorem escapedBytes?_eq_some_iff {t : Text} {bs : List Byte} :
    escapedBytes? t = some bs ↔ Spells t bs := by
  constructor
  · intro h
    fun_induction escapedBytes? t generalizing bs with
    | case1 => cases h; exact .nil
    | case2 a b rest ih =>
      simp only [Option.bind_eq_bind, Option.bind_eq_some_iff, Option.pure_def,
        Option.some.injEq] at h
      obtain ⟨high, hh, low, hl, bs, hr, rfl⟩ := h
      rw [upperHexValue?_eq_some_iff.mp hh, upperHexValue?_eq_some_iff.mp hl]
      have hs := Spells.percent ⟨high.val * 16 + low.val, by omega⟩ (ih hr)
      rw [percent_hex rfl] at hs
      exact hs
    | case4 c rest _ hc hv ih =>
      simp only [Option.bind_eq_bind, Option.bind_eq_some_iff, Option.pure_def,
        Option.some.injEq] at h
      obtain ⟨bs, hr, rfl⟩ := h
      exact .plain hc rfl (ih hr)
    | _ => contradiction
  · intro h
    induction h with
    | nil => rfl
    | plain hc hb _ ih => rw [escapedBytes?_plain hc hb, ih]; rfl
    | percent b _ ih => rw [escapedBytes?_percent, ih]; rfl

theorem unescape?_eq_some_iff {e t : Text} : unescape? e = some t ↔ Escapes e t := by
  simp only [unescape?, Option.bind_eq_some_iff, Utf8.decode?_eq_some_iff, escapedBytes?_eq_some_iff]
  constructor
  · rintro ⟨bs, hs, rfl⟩
    exact hs
  · intro h
    exact ⟨_, h, rfl⟩

end Text

end FilterQuery
