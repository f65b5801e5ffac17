import FilterQuery.Filter.Compile
import FilterQuery.Proofs.Entries
import FilterQuery.Proofs.JsonReading

namespace FilterQuery

namespace Value

mutual

/-- Whether a value is built from null, truth values, whole numbers that can be written, texts without
surrogates, lists, and dictionaries with such texts as keys, each of them once. -/
def isDocument : Value → Bool
  | null => true
  | bool _ => true
  | int n => (int n).isPrintable
  | text t => !t.any CodePoint.isSurrogate
  | list items => areDocuments items
  | dict entries => Entries.isDistinct entries && areMembers entries
  | _ => false

def areDocuments : List Value → Bool
  | [] => true
  | v :: vs => isDocument v && areDocuments vs

def areMembers : List (Value × Value) → Bool
  | [] => true
  | (k, v) :: rest => isDocument k && isDocument v && areMembers rest

end

end Value

namespace Json

mutual

-- Along the value: what it is written as stands for it again, dictionaries because no key comes twice.
theorem toValue_ofValue? {v : Value} (h : v.isDocument) :
    ∃ j, ofValue? v = some j ∧ j.isPlain ∧ j.toValue = v := by
  match v with
  | .null => exact ⟨null, rfl, rfl, rfl⟩
  | .bool b => exact ⟨bool b, rfl, rfl, rfl⟩
  | .int n => exact ⟨int n, if_pos h, h, rfl⟩
  | .text t => exact ⟨text t, rfl, h, rfl⟩
  | .list items =>
    obtain ⟨js, hs, hp, hv⟩ := itemValues_ofItems? h
    refine ⟨array js, ?_, hp, ?_⟩
    · rw [ofValue?, hs]
      rfl
    · rw [toValue, hv]
  | .dict entries =>
    simp only [Value.isDocument, Bool.and_eq_true] at h
    obtain ⟨members, hs, hp, hv⟩ := memberValues_ofEntries? h.1 h.2
    refine ⟨object members, ?_, hp, ?_⟩
    · rw [ofValue?, hs]
      rfl
    · rw [toValue, hv, Entries.ofList_of_isDistinct h.1]
  | .float _ | .tuple _ | .date _ | .dateTime _ | .order _ => contradiction

theorem itemValues_ofItems? {items : List Value} (h : Value.areDocuments items) :
    ∃ js, ofItems? items = some js ∧ arePlain js ∧ itemValues js = items := by
  match items with
  | [] => exact ⟨[], rfl, rfl, rfl⟩
  | v :: vs =>
    simp only [Value.areDocuments, Bool.and_eq_true] at h
    obtain ⟨j, hj, hp, hv⟩ := toValue_ofValue? h.1
    obtain ⟨js, hs, hps, hvs⟩ := itemValues_ofItems? h.2
    refine ⟨j :: js, ?_, ?_, ?_⟩
    · rw [ofItems?, hj, hs]
    · rw [arePlain, hp, hps]
      rfl
    · rw [itemValues, hv, hvs]

theorem memberValues_ofEntries? {entries : List (Value × Value)} (hd : Entries.isDistinct entries)
    (h : Value.areMembers entries) :
    ∃ members, ofEntries? entries = some members ∧ areMembersPlain members ∧
      memberValues members = entries := by
  match entries with
  | [] => exact ⟨[], rfl, rfl, rfl⟩
  | (k, v) :: rest =>
    simp only [Value.areMembers, Bool.and_eq_true] at h
    simp only [Entries.isDistinct, Bool.and_eq_true] at hd
    obtain ⟨name, hk⟩ := Option.isSome_iff_exists.mp hd.1.1
    obtain ⟨j, hj, hp, hv⟩ := toValue_ofValue? h.1.2
    obtain ⟨members, hs, hps, hvs⟩ := memberValues_ofEntries? hd.2 h.2
    have hk : k = .text name := by
      cases k with
      | text t =>
        cases hk
        rfl
      | _ => contradiction
    have hn : (!List.any name CodePoint.isSurrogate) = true := by
      rw [hk] at h
      exact h.1.1
    refine ⟨(name, j) :: members, ?_, ?_, ?_⟩
    · rw [ofEntries?, hk, hj, hs]
      rfl
    · rw [areMembersPlain, hn, hp, hps]
      rfl
    · rw [memberValues, hk, hv, hvs]

end

end Json

namespace Filter

/-- A dictionary built from what JSON has compiles like the JSON text that is written for it: to the same token
or with the same failure, and with the same log. -/
theorem compile_jsonText (hints : Hints) {group : Entries} (h : (Value.dict group).isDocument) :
    ∃ t, (Value.dict group).jsonText? = some t ∧
      compile hints (.text t) = compile hints (.dict group) := by
  obtain ⟨j, hj, hp, hv⟩ := Json.toValue_ofValue? h
  refine ⟨j.toText, ?_, ?_⟩
  · rw [Value.jsonText?, hj]
    rfl
  · have hd : description (.text j.toText) = .ok (.dict group) := by
      rw [description, ofJsonText, Json.parse_toText hp, ← hv]
    rw [compile, hd]
    rfl

/-- A description with a quote, a control, a code point past U+FFFF and nested lists in it, and a fault that
is told of with its value. -/
theorem compile_jsonText_escapes :
    let group : Entries := [(.text "op", .text "AND"), (.text "rules", .list [
      .dict [(.text "field_name", .text ['"', '\n', ⟨0x1F600, by decide⟩]), (.text "operator", .text "=="),
        (.text "value", .int (-70))],
      .dict [(.text "field_name", .text "b"), (.text "operator", .text "<"),
        (.text "value", .dict [(.text [], .list [.null, .list [], .bool true])]), (.text "dtype", .text "int")]])]
    (Value.dict group).isDocument ∧
      ∃ t, (Value.dict group).jsonText? = some t ∧
        compile [] (.text t) = compile [] (.dict group) := by
  intro group
  have h : (Value.dict group).isDocument := by decide +kernel
  exact ⟨h, compile_jsonText [] h⟩

end Filter

end FilterQuery
