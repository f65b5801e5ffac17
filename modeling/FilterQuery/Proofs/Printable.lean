import FilterQuery.Json.Reader
import FilterQuery.Proofs.Numeral
import FilterQuery.Proofs.Rule

namespace FilterQuery

namespace Entries

theorem printable_insert {key v : Value} {entries : Entries} (hk : key.isPrintable) (hv : v.isPrintable)
    (h : Value.areEntriesPrintable entries) : Value.areEntriesPrintable (entries.insert key v) := by
  induction entries with
  | nil => simp [insert, Value.areEntriesPrintable, hk, hv]
  | cons entry rest ih =>
    obtain ⟨k, w⟩ := entry
    simp only [Value.areEntriesPrintable, Bool.and_eq_true] at h
    rw [insert]
    split
    · simp [Value.areEntriesPrintable, h, hv]
    · simp [Value.areEntriesPrintable, h, ih h.2]

theorem printable_foldl {pairs : List (Value × Value)} {entries : Entries}
    (hp : Value.areEntriesPrintable pairs) (h : Value.areEntriesPrintable entries) :
    Value.areEntriesPrintable (pairs.foldl (fun (entries : Entries) pair => entries.insert pair.1 pair.2) entries) := by
  induction pairs generalizing entries with
  | nil => exact h
  | cons pair rest ih =>
    obtain ⟨k, v⟩ := pair
    simp only [Value.areEntriesPrintable, Bool.and_eq_true] at hp
    exact ih hp.2 (printable_insert hp.1.1 hp.1.2 h)

theorem printable_field? {name : Text} {entries : Entries} {v : Value}
    (h : Value.areEntriesPrintable entries) (hf : entries.field? name = some v) : v.isPrintable := by
  induction entries with
  | nil => contradiction
  | cons entry rest ih =>
    obtain ⟨k, w⟩ := entry
    simp only [Value.areEntriesPrintable, Bool.and_eq_true] at h
    rw [field?] at hf
    split at hf
    · cases hf
      exact h.1.2
    · exact ih h.2 hf

end Entries

theorem Value.printable_of_mem {items : List Value} {v : Value} (h : arePrintable items) (hv : v ∈ items) :
    v.isPrintable := by
  induction items with
  | nil => contradiction
  | cons w rest ih =>
    simp only [arePrintable, Bool.and_eq_true] at h
    obtain rfl | hv := List.mem_cons.mp hv
    · exact h.1
    · exact ih h.2 hv

namespace Json

theorem readWhole?_ne_nil {t rest : Text} {whole : List (Fin 10)} (h : readWhole? t = some (whole, rest)) :
    whole ≠ [] := by
  cases t with
  | nil => contradiction
  | cons c t =>
    rw [readWhole?] at h
    cases hd : c.digit? with
    | none =>
      rw [hd] at h
      contradiction
    | some d =>
      simp only [hd] at h
      split at h
      · cases h
        exact List.cons_ne_nil _ _
      · simp only [Option.some.injEq, Digits.span, hd, Prod.mk.injEq] at h
        rw [← h.1]
        exact List.cons_ne_nil _ _

theorem printable_readNumber {start rest : Text} {j : Json} (h : readNumber start = .ok (j, rest)) :
    j.toValue.isPrintable := by
  rw [readNumber] at h
  cases hw : readWhole? (Numeral.readSign start).2 with
  | none =>
    simp only [hw] at h
    contradiction
  | some found =>
    obtain ⟨whole, after⟩ := found
    simp only [hw] at h
    split at h
    · split at h
      · contradiction
      · rename_i hle
        cases h
        have hc := Digits.count_valueOf_le (readWhole?_ne_nil hw)
        have hs (negative : Bool) (n : Nat) : (Number.signed negative n).natAbs = n := by
          cases negative <;> simp [Number.signed]
        simp only [toValue, Value.isPrintable, hs, decide_eq_true_eq]
        omega
    · cases h
      rfl

theorem printable_readWord? {t rest : Text} {j : Json} (h : readWord? t = some (j, rest)) :
    j.toValue.isPrintable := by
  obtain ⟨⟨word, value⟩, hm, h⟩ := List.exists_of_findSome?_eq_some h
  simp only [Option.ite_none_right_eq_some, Option.some.injEq, Prod.mk.injEq] at h
  obtain ⟨-, rfl, -⟩ := h
  simp only [words, List.mem_cons, Prod.mk.injEq, List.not_mem_nil, or_false] at hm
  rcases hm with ⟨-, rfl⟩ | ⟨-, rfl⟩ | ⟨-, rfl⟩ | ⟨-, rfl⟩ | ⟨-, rfl⟩ | ⟨-, rfl⟩ <;> rfl

theorem map_eq_ok {ε α β : Type} {x : Except ε α} {f : α → β} {b : β} (h : x.map f = .ok b) :
    ∃ a, x = .ok a ∧ f a = b := by
  cases x with
  | error e => contradiction
  | ok a => exact ⟨a, rfl, Except.ok.inj h⟩

mutual

-- Along the fuel of the three readers; of what they put together, whole numbers alone can be too long.
theorem printable_readValue {fuel : Nat} {t rest : Text} {j : Json} (h : readValue fuel t = .ok (j, rest)) :
    j.toValue.isPrintable := by
  match fuel, t with
  | 0, _ => contradiction
  | _ + 1, [] => contradiction
  | fuel + 1, c :: t =>
    rw [readValue] at h
    split at h
    · obtain ⟨⟨s, after⟩, -, h⟩ := map_eq_ok h
      cases h
      rfl
    split at h
    · split at h
      · cases h
        rfl
      · obtain ⟨⟨members, after⟩, hm, h⟩ := map_eq_ok h
        cases h
        exact Entries.printable_foldl (printable_readMembers hm) rfl
    split at h
    · split at h
      · cases h
        rfl
      · obtain ⟨⟨items, after⟩, hi, h⟩ := map_eq_ok h
        cases h
        exact printable_readItems hi
    split at h
    · rename_i hw
      cases h
      exact printable_readWord? hw
    · exact printable_readNumber h

theorem printable_readMembers {fuel : Nat} {t rest : Text} {members : List (Text × Json)}
    (h : readMembers fuel t = .ok (members, rest)) : Value.areEntriesPrintable (memberValues members) := by
  match fuel with
  | 0 => contradiction
  | fuel + 1 =>
    rw [readMembers] at h
    obtain ⟨start, -, h⟩ := bind_eq_ok.mp h
    obtain ⟨⟨name, afterName⟩, -, h⟩ := bind_eq_ok.mp h
    obtain ⟨afterColon, -, h⟩ := bind_eq_ok.mp h
    obtain ⟨⟨value, afterValue⟩, hv, h⟩ := bind_eq_ok.mp h
    have hp := printable_readValue hv
    dsimp only at h
    split at h
    · cases pure_eq_ok.mp h
      simp [memberValues, Value.areEntriesPrintable, Value.isPrintable, hp]
    · obtain ⟨afterComma, -, h⟩ := bind_eq_ok.mp h
      obtain ⟨⟨more, last⟩, hm, h⟩ := bind_eq_ok.mp h
      cases pure_eq_ok.mp h
      simp [memberValues, Value.areEntriesPrintable, Value.isPrintable, hp, printable_readMembers hm]

theorem printable_readItems {fuel : Nat} {t rest : Text} {items : List Json}
    (h : readItems fuel t = .ok (items, rest)) : Value.arePrintable (itemValues items) := by
  match fuel with
  | 0 => contradiction
  | fuel + 1 =>
    rw [readItems] at h
    obtain ⟨⟨value, afterValue⟩, hv, h⟩ := bind_eq_ok.mp h
    have hp := printable_readValue hv
    dsimp only at h
    split at h
    · cases pure_eq_ok.mp h
      simp [itemValues, Value.arePrintable, hp]
    · obtain ⟨afterComma, -, h⟩ := bind_eq_ok.mp h
      obtain ⟨⟨more, last⟩, hm, h⟩ := bind_eq_ok.mp h
      cases pure_eq_ok.mp h
      simp [itemValues, Value.arePrintable, hp, printable_readItems hm]

end

/-- No whole number of too many digits is in what a text is read as. -/
theorem printable_parse {t : Text} {j : Json} (h : parse t = .ok j) : j.toValue.isPrintable := by
  rw [parse] at h
  split at h
  · contradiction
  obtain ⟨⟨value, rest⟩, hv, h⟩ := bind_eq_ok.mp h
  dsimp only at h
  split at h
  · cases pure_eq_ok.mp h
    exact printable_readValue hv
  · contradiction

end Json

end FilterQuery
