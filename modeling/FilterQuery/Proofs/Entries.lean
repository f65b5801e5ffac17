import FilterQuery.Value.Basic

namespace FilterQuery.Entries

variable {name other : Text} {v : Value} {entries : Entries}

/-- The entries without those of a name. -/
def remove (name : Text) (entries : Entries) : Entries := entries.filter fun entry => !entry.1.isText name

theorem same_text (k : Value) (name : Text) : k.same (.text name) = k.isText name := by
  cases k <;> rfl

theorem text_same (name : Text) (k : Value) : (Value.text name).same k = k.isText name := by
  cases k with
  | text t => exact decide_eq_decide.mpr eq_comm
  | _ => rfl

theorem isText_iff {k : Value} : k.isText name = true ↔ k = .text name := by
  cases k <;> simp [Value.isText]

@[simp] theorem field?_insert (name : Text) (v : Value) (entries : Entries) :
    (entries.insert (.text name) v).field? name = some v := by
  induction entries with
  | nil => simp [insert, field?, Value.isText]
  | cons entry rest ih =>
    obtain ⟨k, w⟩ := entry
    rw [insert, same_text]
    split
    · rename_i h
      rw [field?, if_pos h]
    · rename_i h
      rw [field?, if_neg h, ih]

theorem field?_insert_of_ne (h : name ≠ other) (v : Value) (entries : Entries) :
    (entries.insert (.text name) v).field? other = entries.field? other := by
  induction entries with
  | nil => simp [insert, field?, Value.isText, h]
  | cons entry rest ih =>
    obtain ⟨k, w⟩ := entry
    rw [insert, same_text]
    split
    · rename_i hk
      rw [isText_iff.mp hk]
      simp [field?, Value.isText, h]
    · rw [field?, field?, ih]

@[simp] theorem field?_remove (name : Text) (entries : Entries) : (entries.remove name).field? name = none := by
  induction entries with
  | nil => rfl
  | cons entry rest ih =>
    obtain ⟨k, w⟩ := entry
    rw [remove, List.filter_cons]
    split
    · rename_i hk
      rw [field?, if_neg (by simpa using hk)]
      exact ih
    · exact ih

theorem field?_remove_of_ne (h : name ≠ other) (entries : Entries) :
    (entries.remove name).field? other = entries.field? other := by
  induction entries with
  | nil => rfl
  | cons entry rest ih =>
    obtain ⟨k, w⟩ := entry
    rw [remove, List.filter_cons]
    split
    · rw [remove] at ih
      rw [field?, field?, ih]
    · rename_i hk
      have hk : k = .text name := isText_iff.mp (by simpa using hk)
      have hn : (Value.text name).isText other = false := decide_eq_false h
      rw [remove] at ih
      rw [ih, hk, field?, if_neg (by simp [hn])]

theorem insert_of_not_hasKey (h : entries.hasKey (.text name) = false) (v : Value) :
    entries.insert (.text name) v = entries ++ [(.text name, v)] := by
  induction entries with
  | nil => rfl
  | cons entry rest ih =>
    obtain ⟨k, w⟩ := entry
    simp only [hasKey, List.any_cons, Bool.or_eq_false_iff] at h
    rw [insert, h.1, ih h.2]
    rfl

/-- The keys are texts, each of which has one entry. -/
def isDistinct : Entries → Bool
  | [] => true
  | (k, _) :: rest => k.text?.isSome && !hasKey k rest && isDistinct rest

theorem foldl_insert_of_isDistinct {pairs : List (Value × Value)} {found : Entries} (h : isDistinct pairs)
    (hf : ∀ pair ∈ pairs, found.hasKey pair.1 = false) :
    pairs.foldl (fun (entries : Entries) pair => entries.insert pair.1 pair.2) found = found ++ pairs := by
  induction pairs generalizing found with
  | nil => simp
  | cons pair rest ih =>
    obtain ⟨k, v⟩ := pair
    cases k with
    | text name =>
      simp only [isDistinct, Bool.and_eq_true, Bool.not_eq_true'] at h
      obtain ⟨⟨-, hk⟩, h⟩ := h
      rw [List.foldl_cons, insert_of_not_hasKey (hf _ List.mem_cons_self), ih h, List.append_assoc]
      · rfl
      intro pair hm
      have hn : pair.1.same (.text name) = false := Bool.eq_false_iff.mpr (List.any_eq_false.mp hk pair hm)
      rw [same_text, ← text_same] at hn
      have hp := hf pair (List.mem_cons_of_mem _ hm)
      rw [hasKey] at hp ⊢
      rw [List.any_append, hp, List.any_cons, List.any_nil, hn]
      rfl
    | _ => simp [isDistinct, Value.text?] at h

/-- A dictionary is made of its own entries. -/
theorem ofList_of_isDistinct (h : entries.isDistinct) : ofList entries = entries :=
  foldl_insert_of_isDistinct h fun _ _ => rfl

end FilterQuery.Entries
