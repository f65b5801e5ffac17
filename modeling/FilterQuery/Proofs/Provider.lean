import FilterQuery.Settings.Provider

namespace FilterQuery

namespace Validation

theorem nonemptyText_eq_ok {t name : Text} :
    nonemptyText (.text t) = .ok name ↔ (t ≠ [] ∧ t.any CodePoint.isSurrogate = false) ∧ name = t := by
  cases hs : t.any CodePoint.isSurrogate with
  | true => simp [nonemptyText, text, readable, hs, faulty, bind, Except.bind]
  | false =>
    cases t with
    | nil => simp [nonemptyText, text, readable, faulty, bind, Except.bind]
    | cons c t =>
      simp [nonemptyText, text, readable, hs, bind, Except.bind, pure, Except.pure, eq_comm]

end Validation

namespace Settings

theorem validateName_eq_ok {p : Parameter} {t name : Text} :
    validateName p (some (.text t)) = .ok name ↔
      (t ≠ [] ∧ t.any CodePoint.isSurrogate = false) ∧ name = t := by
  rw [← Validation.nonemptyText_eq_ok, validateName]
  cases Validation.nonemptyText (.text t) with
  | ok given =>
    change Except.ok given = _ ↔ _
    rw [Except.ok.injEq, Except.ok.injEq]
  | error problem =>
    change Except.error _ = _ ↔ _
    simp

theorem validate_eq_ok {given : Parameter → Option Value} {s : Settings} :
    validate given = .ok s ↔ ∀ p, validateName p (given p) = .ok (s.name p) := by
  constructor
  · intro h p
    rw [validate] at h
    split at h
    · next hf hs hl =>
      cases h
      cases p <;> assumption
    · contradiction
  · intro h
    simp only [validate, h .filter, h .sort, h .limit]
    rfl

/-- The settings with the names that assignments give, later ones over earlier ones. -/
def overwrite (s : Settings) (given : List (Parameter × Text)) : Settings :=
  given.foldl (fun s a => s.setName a.1 a.2) s

/-- The parameter that an assignment gives a name, and the name. It gives none if it is about something else. -/
def renamed? (a : Text × Text) : Option (Parameter × Text) :=
  (Parameter.ofMember? a.1).map fun p => (p, a.2)

/-- The names that assignments give. -/
def renamings (assignments : List (Text × Text)) : List (Parameter × Text) := assignments.filterMap renamed?

end Settings

namespace Environment

/-- Each variable that is set holds a name: a text that is not empty and has no surrogates. -/
def IsUsable (e : Environment) : Prop :=
  ∀ p t, e p = some t → t ≠ [] ∧ t.any CodePoint.isSurrogate = false

/-- The names in an environment, the default ones for variables that are not set. -/
def names (e : Environment) : Settings :=
  ⟨(e .filter).getD Parameter.filter.defaultName, (e .sort).getD Parameter.sort.defaultName,
    (e .limit).getD Parameter.limit.defaultName⟩

theorem name_names (e : Environment) (p : Parameter) : e.names.name p = (e p).getD p.defaultName := by
  cases p <;> rfl

theorem settings_eq_ok {e : Environment} {s : Settings} :
    e.settings = .ok s ↔ e.IsUsable ∧ s = e.names := by
  have hd (p : Parameter) : p.defaultName ≠ [] ∧ p.defaultName.any CodePoint.isSurrogate = false := by
    cases p <;> decide
  rw [settings, Settings.validate_eq_ok]
  simp only [Settings.validateName_eq_ok]
  constructor
  · intro h
    refine ⟨fun p t ht => ?_, ?_⟩
    · have := (h p).1
      rwa [ht] at this
    · have hn (p : Parameter) : s.name p = e.names.name p := (h p).2.trans (e.name_names p).symm
      cases s
      rw [names, Settings.mk.injEq]
      exact ⟨hn .filter, hn .sort, hn .limit⟩
  · rintro ⟨hu, rfl⟩ p
    refine ⟨?_, e.name_names p⟩
    cases ht : e p with
    | none => exact hd p
    | some t => exact hu p t ht

end Environment

namespace Held

/-- The object after an attempt to assign; one that it refuses leaves it as it was. -/
def attempt (h : Held) (a : Text × Text) : Held :=
  match h.assign a.1 a.2 with
  | .ok assigned => assigned
  | .error _ => h

def attemptAll (h : Held) (assignments : List (Text × Text)) : Held := assignments.foldl attempt h

/-- An attempt changes nothing of the object but the name that it gives. -/
theorem attempt_eq (h : Held) (a : Text × Text) :
    h.attempt a = ⟨h.identity, h.settings.overwrite (Settings.renamings [a])⟩ := by
  rw [attempt, assign, Settings.renamings, List.filterMap_cons, Settings.renamed?]
  cases Parameter.ofMember? a.1 with
  | some p => rfl
  | none => cases Extras.assign [] "ProtocolSettings" a.1 (.text a.2) <;> rfl

theorem attemptAll_eq (h : Held) (l : List (Text × Text)) :
    h.attemptAll l = ⟨h.identity, h.settings.overwrite (Settings.renamings l)⟩ := by
  induction l generalizing h with
  | nil => rfl
  | cons a rest ih =>
    have hsplit : Settings.renamings (a :: rest) = Settings.renamings [a] ++ Settings.renamings rest :=
      List.filterMap_append (l := [a])
    refine (ih (h.attempt a)).trans ?_
    rw [hsplit, attempt_eq, Settings.overwrite, Settings.overwrite, Settings.overwrite, List.foldl_append]

end Held

namespace Provider

/-- The object that settings made now would be. -/
def fresh (p : Provider) : Held := ⟨p.made, p.environment.names⟩

/-- What a provider asked for its settings does: it gives the object it holds, or else makes one, unless the
environment is not usable; then it stays as it is. -/
theorem get_cases (p : Provider) :
    (∃ held, p.held = some held ∧ p.get = ⟨p, [], .ok held⟩) ∨
    (p.held = none ∧ p.environment.IsUsable ∧
      p.get = ⟨{ p with held := some p.fresh, made := p.made + 1 },
        [initialized p.environment.names], .ok p.fresh⟩) ∨
    (p.held = none ∧ ¬ p.environment.IsUsable ∧ ∃ failure, p.get = ⟨p, [], .error failure⟩) := by
  rw [get]
  cases p.held with
  | some held => exact .inl ⟨held, rfl, rfl⟩
  | none =>
    cases hs : p.environment.settings with
    | ok s =>
      obtain ⟨hu, rfl⟩ := Environment.settings_eq_ok.mp hs
      exact .inr (.inl ⟨rfl, hu, rfl⟩)
    | error failure =>
      refine .inr (.inr ⟨rfl, fun hu => ?_, failure, rfl⟩)
      have := Environment.settings_eq_ok.mpr ⟨hu, rfl⟩
      rw [hs] at this
      contradiction

end Provider

end FilterQuery
