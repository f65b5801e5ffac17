import FilterQuery.Builder
import FilterQuery.Proofs.Instant
import Mathlib.Data.List.Forall2

namespace FilterQuery

/-- A code point does in the place of another: a digit for a digit, and else the same. -/
def CodePoint.Fits (place c : CodePoint) : Prop := if place.isAsciiDigit then c.isAsciiDigit = true else c = place

theorem CodePoint.fits_self (c : CodePoint) : c.Fits c := by
  unfold Fits
  split
  · assumption
  · rfl

theorem CodePoint.fits_ofDigit (d : Fin 10) : (ofDigit 0).Fits (ofDigit d) := by
  revert d
  unfold Fits
  decide

namespace Text

/-- The numbers of the code points. Texts are sorted by these, the first difference deciding. -/
def codes (t : Text) : List Nat := t.map CodePoint.val

/-- A text has a digit wherever the form has one, and is like the form elsewhere. -/
def HasForm (form t : Text) : Prop := List.Forall₂ CodePoint.Fits form t

theorem HasForm.append {f g s t : Text} (hs : HasForm f s) (ht : HasForm g t) : HasForm (f ++ g) (s ++ t) :=
  List.rel_append hs ht

theorem HasForm.mark (c : CodePoint) {f t : Text} (ht : HasForm f t) : HasForm (c :: f) (c :: t) :=
  List.Forall₂.cons c.fits_self ht

theorem codes_cons_lt {c d : CodePoint} {s t : Text} :
    codes (c :: s) < codes (d :: t) ↔ c.val < d.val ∨ c.val = d.val ∧ codes s < codes t :=
  List.cons_lt_cons_iff

end Text

namespace Calendar

theorem hasForm_field (width n : Nat) : Text.HasForm (List.replicate width (CodePoint.ofDigit 0)) (field width n) := by
  induction width generalizing n with
  | zero => exact .nil
  | succ width ih =>
    rw [List.replicate_succ', field]
    exact (ih (n / 10)).append (List.Forall₂.cons (CodePoint.fits_ofDigit _) .nil)

/-- Fields of the same width compare as their numbers do, and what follows them decides if those are equal. -/
theorem codes_field_lt {width m n : Nat} {s t : Text} (hm : m < 10 ^ width) (hn : n < 10 ^ width) :
    (field width m ++ s).codes < (field width n ++ t).codes ↔ m < n ∨ m = n ∧ s.codes < t.codes := by
  induction width generalizing m n s t with
  | zero =>
    have hm : m = 0 := by omega
    have hn : n = 0 := by omega
    simp [field, hm, hn]
  | succ width ih =>
    -- The last digits count as what follows the shorter fields.
    rw [Nat.pow_succ] at hm hn
    rw [field, field, List.append_assoc, List.append_assoc, ih (by omega) (by omega)]
    simp only [List.singleton_append, Text.codes_cons_lt, CodePoint.ofDigit]
    by_cases hst : s.codes < t.codes
    · simp only [hst, and_true]
      omega
    · simp only [hst, and_false, or_false]
      omega

/-- The same with one code point after both fields. -/
theorem codes_field_cons_lt {width m n : Nat} {c : CodePoint} {s t : Text} (hm : m < 10 ^ width)
    (hn : n < 10 ^ width) : (field width m ++ c :: s).codes < (field width n ++ c :: t).codes ↔
      m < n ∨ m = n ∧ s.codes < t.codes := by
  rw [codes_field_lt hm hn, Text.codes_cons_lt]
  simp

end Calendar

/-- The order of dates with something after them. -/
theorem Date.number_lt_or {d e : Date} {p : Prop} :
    (d.year < e.year ∨ d.year = e.year ∧
        (d.month < e.month ∨ d.month = e.month ∧ (d.day < e.day ∨ d.day = e.day ∧ p))) ↔
      d.number < e.number ∨ d.number = e.number ∧ p := by
  rw [number_lt_iff, number_injective.eq_iff]
  obtain ⟨y, m, n, _⟩ := d
  obtain ⟨y', m', n', _⟩ := e
  simp only [Before, mk.injEq]
  by_cases hp : p
  · simp only [hp, and_true]
    omega
  · simp only [hp, and_false, or_false]

namespace Timestamp

open Calendar

/-- Milliseconds since the start of year 1. -/
def number (t : Timestamp) : Nat :=
  (((t.date.number * 24 + t.hour) * 60 + t.minute) * 60 + t.second) * 1000 + t.millisecond

theorem number_ofCivil (c : CivilTime) : (ofCivil c).number = c.number / 1000 := by
  simp only [number, ofCivil, CivilTime.number, TimeOfDay.number, dayLength]
  omega

theorem number_injective : Function.Injective number := by
  rintro ⟨date, hour, minute, second, millisecond⟩ ⟨date', hour', minute', second', millisecond'⟩ h
  simp only [number] at h
  have hd : date = date' := Date.number_injective (by omega)
  simp only [mk.injEq, Fin.ext_iff, hd, true_and]
  omega

/-- As the fields go from the greatest to the least, the texts sort as the numbers do. -/
theorem codes_lt_iff {s t : Timestamp} : s.toText.codes < t.toText.codes ↔ s.number < t.number := by
  obtain ⟨_, hy, _, hm, _, hd⟩ := s.date.isDate
  obtain ⟨_, hy', _, hm', _, hd'⟩ := t.date.isDate
  have hl := daysInMonth_le s.date.year s.date.month
  have hl' := daysInMonth_le t.date.year t.date.month
  rw [toText_eq, toText_eq, codes_field_cons_lt (by omega) (by omega), codes_field_cons_lt (by omega) (by omega),
    codes_field_cons_lt (by omega) (by omega), codes_field_cons_lt (by omega) (by omega),
    codes_field_cons_lt (by omega) (by omega), codes_field_cons_lt (by omega) (by omega),
    codes_field_lt (by omega) (by omega), Date.number_lt_or, number, number]
  simp only [List.lt_irrefl, and_false, or_false]
  omega

theorem toText_eq_iff {s t : Timestamp} : s.toText = t.toText ↔ s.number = t.number := by
  constructor
  · intro h
    have hs := s.read?_toText
    rw [h, t.read?_toText] at hs
    rw [Option.some.inj hs]
  · intro h
    rw [number_injective h]

/-- The form of all timestamps. -/
def form : Text := "0000-00-00T00:00:00.000Z"

theorem hasForm_toText (t : Timestamp) : Text.HasForm form t.toText := by
  rw [toText_eq]
  refine (hasForm_field 4 _).append (.mark '-' ?_)
  refine (hasForm_field 2 _).append (.mark '-' ?_)
  refine (hasForm_field 2 _).append (.mark 'T' ?_)
  refine (hasForm_field 2 _).append (.mark ':' ?_)
  refine (hasForm_field 2 _).append (.mark ':' ?_)
  refine (hasForm_field 2 _).append (.mark '.' ?_)
  exact (hasForm_field 3 _).append (.mark 'Z' .nil)

/-- A text that tells of an instant is a timestamp, and the instant lies in its millisecond. -/
structure Tells (s : Text) (d : DateTime) : Prop where
  form : Text.HasForm form s
  length : s.length = 24
  millisecond : ∃ t, read? s = some t ∧ (t.number : Int) * 1000 ≤ d.instant ∧ d.instant < (t.number + 1) * 1000

end Timestamp

/-- An instant in range has the text of the millisecond that it falls in. -/
theorem Constructor.dateToken_of_inRange {v : Value} {d : DateTime} (hv : v.dateTime? = some d) (hd : d.InRange) :
    ∃ t : Timestamp, dateToken v = .ok t.toText ∧ (t.number : Int) = d.instant / 1000 := by
  obtain ⟨c, hc⟩ := DateTime.exists_toUtc_iff.mpr hd
  refine ⟨.ofCivil c, ?_, ?_⟩
  · have hu : v.toUtc = .ok c := by rw [Value.toUtc, hv, ← hc]
    have hn : v ≠ .null := by
      rintro rfl
      contradiction
    rw [dateToken, hu]
    · rfl
    · exact hn
  · rw [Timestamp.number_ofCivil, ← DateTime.toUtc_eq_ok_iff.mp hc]
    rfl

theorem Timestamp.tells_toText {t : Timestamp} {d : DateTime} (h : (t.number : Int) = d.instant / 1000) :
    Tells t.toText d := by
  refine ⟨t.hasForm_toText, t.length_toText, t, t.read?_toText, ?_, ?_⟩
  · omega
  · omega

/-- The texts of two instants in range, given as dates or as datetimes with any offsets, sort as the milliseconds
that the instants fall in; one instant has one text. -/
theorem Constructor.dateToken_sorts {v w : Value} {d e : DateTime} (hv : v.dateTime? = some d)
    (hw : w.dateTime? = some e) (hd : d.InRange) (he : e.InRange) :
    ∃ s t, dateToken v = .ok s ∧ dateToken w = .ok t ∧ Timestamp.Tells s d ∧ Timestamp.Tells t e ∧
      (s.codes < t.codes ↔ d.instant / 1000 < e.instant / 1000) ∧
      (s = t ↔ d.instant / 1000 = e.instant / 1000) ∧
      (t.codes < s.codes ↔ e.instant / 1000 < d.instant / 1000) ∧
      (d.instant = e.instant → s = t) := by
  obtain ⟨s, hs, hsn⟩ := dateToken_of_inRange hv hd
  obtain ⟨t, ht, htn⟩ := dateToken_of_inRange hw he
  refine ⟨s.toText, t.toText, hs, ht, Timestamp.tells_toText hsn, Timestamp.tells_toText htn, ?_, ?_, ?_, ?_⟩
  · rw [Timestamp.codes_lt_iff]
    omega
  · rw [Timestamp.toText_eq_iff]
    omega
  · rw [Timestamp.codes_lt_iff]
    omega
  · rw [Timestamp.toText_eq_iff]
    omega

/-- The last microsecond of a leap day comes before the first of March, which begins in UTC as it is half past
midnight elsewhere. -/
theorem Constructor.dateToken_sorts_leapDay :
    let d : DateTime := ⟨⟨⟨2024, 2, 29, by decide⟩, ⟨23, 59, 59, 999999⟩⟩, none⟩
    let e : DateTime := ⟨⟨⟨2024, 3, 1, by decide⟩, ⟨0, 30, 0, 0⟩⟩, some ⟨1800000000, by decide⟩⟩
    (Value.dateTime d).dateTime? = some d ∧ (Value.dateTime e).dateTime? = some e ∧ d.InRange ∧ e.InRange ∧
      ∃ s t, dateToken (.dateTime d) = .ok s ∧ dateToken (.dateTime e) = .ok t ∧ s.codes < t.codes := by
  intro d e
  have hd : d.InRange := ⟨by decide, by decide⟩
  have he : e.InRange := ⟨by decide, by decide⟩
  have hv : (Value.dateTime d).dateTime? = some d := rfl
  have hw : (Value.dateTime e).dateTime? = some e := rfl
  obtain ⟨s, t, hs, ht, _, _, hlt, _⟩ := dateToken_sorts hv hw hd he
  exact ⟨hv, hw, hd, he, s, t, hs, ht, hlt.mpr (by decide)⟩

end FilterQuery
