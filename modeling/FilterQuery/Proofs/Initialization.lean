import FilterQuery.Proofs.History
import FilterQuery.Proofs.Invalid

namespace FilterQuery

namespace Octets

variable {t : Text}

theorem normalize_of_no_surrogate (h : t.any CodePoint.isSurrogate = false) : normalize t = t := by
  simp [normalize, h]

end Octets

namespace Environment

/-- No text in an environment holds a surrogate. -/
def IsCharacters (e : Environment) : Prop := ∀ p t, e p = some t → t.any CodePoint.isSurrogate = false

/-- The parameters whose variables are set to the empty text. -/
def blanks (e : Environment) : List Parameter := Parameter.all.filter fun p => e p = some []

variable {e : Environment}

theorem blanks_ne_nil_iff : e.blanks ≠ [] ↔ ∃ p, e p = some [] := by
  constructor
  · intro h
    obtain ⟨p, hp⟩ := List.exists_mem_of_ne_nil _ h
    exact ⟨p, by simpa using (List.mem_filter.mp hp).2⟩
  · rintro ⟨p, hp⟩ h
    have hm : p ∈ e.blanks := List.mem_filter.mpr ⟨by cases p <;> decide, by simpa using hp⟩
    simp [h] at hm

theorem IsCharacters.validateName (he : e.IsCharacters) (p : Parameter) :
    Settings.validateName p (some (.text ((e p).getD p.defaultName))) =
      if e p = some [] then .error [⟨[p.member], .tooShort⟩] else .ok (e.names.name p) := by
  rw [name_names]
  cases ht : e p with
  | none =>
    rw [if_neg nofun]
    apply Settings.validateName_eq_ok.mpr
    cases p <;> decide
  | some t =>
    by_cases hn : t = []
    · subst hn
      rfl
    · rw [if_neg (by simpa using hn)]
      exact Settings.validateName_eq_ok.mpr ⟨⟨hn, he p t ht⟩, rfl⟩

/-- Settings are made from an environment of characters unless a variable is blank; each blank one is reported. -/
theorem IsCharacters.settings_eq (he : e.IsCharacters) :
    e.settings = if e.blanks = [] then .ok e.names
      else .error (.invalid (e.blanks.map fun p => ⟨[p.member], .tooShort⟩)) := by
  simp only [settings, Settings.validate, he.validateName, blanks, Parameter.all]
  by_cases hf : e .filter = some [] <;> by_cases hs : e .sort = some [] <;>
    by_cases hl : e .limit = some [] <;> simp [hf, hs, hl, issuesOf, names, Settings.name]

end Environment

namespace Provider

variable {p : Provider}

theorem get_of_settings_error {failure : Failure} (hh : p.held = none)
    (hs : p.environment.settings = .error failure) : p.get = ⟨p, [], .error failure⟩ := by
  simp only [get, hh, hs]

theorem get_of_settings_ok {s : Settings} (hh : p.held = none) (hs : p.environment.settings = .ok s) :
    p.get = ⟨{ p with held := some ⟨p.made, s⟩, made := p.made + 1 }, [initialized s],
      .ok ⟨p.made, s⟩⟩ := by
  simp only [get, hh, hs]

end Provider

namespace Session

/-- An outcome that comes of getting the settings and using them, which finds nothing invalid in them. -/
structure Uses (s : Session) (outcome : Outcome) : Prop where
  log : outcome.log = s.provider.get.log
  answer : ∃ use : Held → Except Failure Answer, (∀ held issues, ¬ Foreign (use held) (.invalid issues)) ∧
    outcome.answer = s.provider.get.result >>= use

theorem uses_render (s : Session) {arguments : Entries} {f : Request → Settings → Except Failure Text}
    (ha : (Request.ofArguments arguments).isOk = true)
    (hf : ∀ r settings issues, ¬ Foreign (f r settings) (.invalid issues)) :
    s.Uses (s.render none arguments f) := by
  cases hr : Request.ofArguments arguments with
  | error failure =>
    rw [hr] at ha
    contradiction
  | ok r =>
    simp only [render, hr]
    refine ⟨rfl, fun held => (f r held.settings).map .text, ?_, ?_⟩
    · intro held issues
      rw [Foreign.map_iff]
      exact hf r held.settings issues
    · simp only [carry, Provider.withSettings]
      cases s.provider.get.result <;> rfl

theorem uses_assign (s : Session) (member name : Text) : s.Uses (s.step (.assign member name)) := by
  simp only [step, carry, Provider.assign]
  refine ⟨?_, fun held => (held.assign member name).map fun _ => .done, ?_, ?_⟩
  · repeat' split
    all_goals rfl
  · intro held issues
    rw [Foreign.map_iff]
    exact held.assign_not_invalid member name
  · cases s.provider.get.result with
    | error failure => rfl
    | ok held =>
      simp only [bind, Except.bind]
      cases held.assign member name <;> rfl

theorem uses_get (s : Session) : s.Uses (s.step .get) := by
  simp only [step]
  cases hg : s.provider.get.result with
  | error failure => exact ⟨rfl, fun _ => .ok .done, fun _ _ => Foreign.ok, by rw [hg]; rfl⟩
  | ok held =>
    exact ⟨rfl, fun _ => .ok (.settings held.settings _), fun _ _ => Foreign.ok, by rw [hg]; rfl⟩

theorem uses_step (s : Session) {x : Step} (hx : x.needsSettings = true) : s.Uses (s.step x) := by
  cases x with
  | get => exact s.uses_get
  | assign member name => exact s.uses_assign member name
  | queryString given arguments =>
    cases given with
    | none => exact s.uses_render hx fun r settings _ => r.queryString_not_invalid settings
    | some settings => contradiction
  | url given arguments base =>
    cases given with
    | none => exact s.uses_render hx fun r settings _ => r.url_not_invalid settings base
    | some settings => contradiction
  | _ => contradiction

theorem Uses.answer_ne {s : Session} {outcome : Outcome} {held : Held} (h : s.Uses outcome)
    (hg : s.provider.get.result = .ok held) (issues : List Issue) : outcome.answer ≠ .error (.invalid issues) := by
  obtain ⟨use, hu, ha⟩ := h.answer
  rw [ha, hg]
  exact fun he => hu held issues ⟨he, rfl⟩

/-- A step that needs no settings logs nothing. -/
theorem log_of_not_needs (s : Session) {x : Step} (hx : x.needsSettings = false) : (s.step x).log = [] := by
  cases x with
  | set which text =>
    simp only [step, carry, Provider.setVariable]
    repeat' split
    all_goals rfl
  | unset which => rfl
  | reset => rfl
  | get => contradiction
  | assign member name => contradiction
  | queryString given arguments =>
    obtain ⟨answer, ha⟩ := step_of_idle_rendering rfl hx
    rw [ha]
  | url given arguments base =>
    obtain ⟨answer, ha⟩ := step_of_idle_rendering rfl hx
    rw [ha]

/-- Settings were made from an environment by the step that needed them: it logged their names and holds them, with
its own assignment if it has one, and no field of them was found invalid. -/
structure Initializes (e : Environment) (x : Step) (outcome : Outcome) : Prop where
  log : outcome.log = [Provider.initialized e.names]
  held : ∃ made : Held, made.settings = e.names ∧
    outcome.session.provider.held = some (made.attemptAll (assignments [x]))
  answer : ∀ issues, outcome.answer ≠ .error (.invalid issues)

variable {s : Session} {x : Step}

theorem step_of_blank (hx : x.needsSettings = true) (hh : s.provider.held = none)
    (he : s.provider.environment.IsCharacters) (hb : s.provider.environment.blanks ≠ []) :
    s.step x = ⟨s, [],
      .error (.invalid (s.provider.environment.blanks.map fun p => ⟨[p.member], .tooShort⟩))⟩ := by
  apply step_of_get_error hx
  apply Provider.get_of_settings_error hh
  rw [he.settings_eq, if_neg hb]

theorem initializes_of_no_blank (hx : x.needsSettings = true) (hh : s.provider.held = none)
    (he : s.provider.environment.IsCharacters) (hb : s.provider.environment.blanks = []) :
    Initializes s.provider.environment x (s.step x) := by
  have hs : s.provider.environment.settings = .ok s.provider.environment.names := by
    rw [he.settings_eq, if_pos hb]
  have hg := Provider.get_of_settings_ok hh hs
  have hu := s.uses_step hx
  refine ⟨?_, ⟨s.provider.fresh, rfl, ?_⟩, ?_⟩
  · rw [hu.log, hg]
  · rw [step_of_get_ok hx hg rfl]
    rfl
  · apply hu.answer_ne
    rw [hg]

theorem isCharacters_set {e : Environment} (he : e.IsCharacters) (which : Parameter) {t : Option Text}
    (ht : ∀ text, t = some text → text.any CodePoint.isSurrogate = false) : (e.set which t).IsCharacters := by
  intro p text h
  unfold Environment.set at h
  split at h
  · exact ht text h
  · exact he p text h

theorem isCharacters_change {e : Environment} {x : Step} (he : e.IsCharacters)
    (hc : ∀ which text, x = .set which text → text.any CodePoint.isSurrogate = false) : (x.change e).IsCharacters := by
  cases x with
  | set which text =>
    have ht := hc which text rfl
    rw [Step.change, Octets.normalize_of_no_surrogate ht]
    split
    · apply isCharacters_set he
      rintro _ ⟨⟩
      exact ht
    · exact he
  | unset which => exact isCharacters_set he which (by simp)
  | _ => exact he

theorem isCharacters_environmentAfter {past : List Step}
    (hc : ∀ which text, .set which text ∈ past → text.any CodePoint.isSurrogate = false) :
    (environmentAfter past).IsCharacters := by
  induction past using List.reverseRecOn with
  | nil => exact fun p t h => nomatch h
  | append_singleton past x ih =>
    rw [environmentAfter, List.foldl_append]
    apply isCharacters_change (ih fun which text h => hc which text (List.mem_append_left [x] h))
    rintro which text rfl
    exact hc which text (by simp)

/-- How many records of the level of information some outcomes have in their logs. -/
def infoCount (outcomes : List Outcome) : Nat := (outcomes.flatMap Outcome.log).countP (·.level = .info)

/-- Whether settings are held after a step and were not before it. -/
def initializes (s : Session) (x : Step) : Bool :=
  s.provider.held.isNone && (s.step x).session.provider.held.isSome

/-- How often settings come to be held in the course of some steps. -/
def initializations (s : Session) : List Step → Nat
  | [] => 0
  | x :: steps => (s.initializes x).toNat + initializations (s.step x).session steps

theorem held_of_not_needs (hx : x.needsSettings = false) (hr : x ≠ .reset) :
    (s.step x).session.provider.held = s.provider.held := by
  rw [step_of_not_needs hx hr]

theorem not_held_of_not_needs (hx : x.needsSettings = false) (hh : s.provider.held = none) :
    (s.step x).session.provider.held = none := by
  by_cases hr : x = .reset
  · subst hr
    rfl
  · rw [held_of_not_needs hx hr, hh]

/-- A step logs one record of that level if settings come to be held in it, and none otherwise. -/
theorem infoCount_step (s : Session) (x : Step) : infoCount [s.step x] = (s.initializes x).toNat := by
  cases hx : x.needsSettings with
  | false =>
    have hl : infoCount [s.step x] = 0 := by simp [infoCount, s.log_of_not_needs hx]
    rw [hl, initializes]
    cases hh : s.provider.held with
    | some held => rfl
    | none => simp [not_held_of_not_needs hx hh]
  | true =>
    have hl : infoCount [s.step x] = s.provider.get.log.countP (·.level = .info) := by
      simp [infoCount, (s.uses_step hx).log]
    rw [hl, initializes]
    obtain ⟨held, hh, hg⟩ | ⟨hh, _, hg⟩ | ⟨hh, _, failure, hg⟩ := s.provider.get_cases
    · simp [hg, hh]
    · rw [step_of_get_ok hx hg rfl, hg, hh]
      rfl
    · rw [step_of_get_error hx hg, hg, hh]
      rfl

theorem infoCount_run (s : Session) (steps : List Step) : infoCount (s.run steps) = s.initializations steps := by
  induction steps generalizing s with
  | nil => rfl
  | cons x steps ih =>
    have hc : infoCount (s.run (x :: steps)) = infoCount [s.step x] + infoCount ((s.step x).session.run steps) := by
      simp [infoCount, run]
    rw [hc, infoCount_step, ih, initializations]

/-- Settings that are held stay until a reset. -/
theorem held_isSome_step (hx : x ≠ .reset) (hh : s.provider.held.isSome = true) :
    (s.step x).session.provider.held.isSome = true := by
  have he := step_effect s x
  generalize (s.step x).session.provider = p' at he
  cases he with
  | reset hr => contradiction
  | idle _ _ => exact hh
  | given _ _ _ => rfl
  | made _ _ _ => rfl
  | failed _ hn _ => simp [hn] at hh

theorem initializations_of_held {steps : List Step} (hr : .reset ∉ steps) (hh : s.provider.held.isSome = true) :
    s.initializations steps = 0 := by
  induction steps generalizing s with
  | nil => rfl
  | cons x steps ih =>
    rw [List.mem_cons, not_or] at hr
    have hi : s.initializes x = false := by simp [initializes, Option.isNone_eq_false_iff.mpr hh]
    rw [initializations, hi, ih hr.2 (held_isSome_step (Ne.symm hr.1) hh)]
    rfl

theorem initializations_le_one (s : Session) {steps : List Step} (hr : .reset ∉ steps) :
    s.initializations steps ≤ 1 := by
  induction steps generalizing s with
  | nil => exact Nat.zero_le 1
  | cons x steps ih =>
    rw [List.mem_cons, not_or] at hr
    rw [initializations]
    cases hi : s.initializes x with
    | false => simpa using ih (s.step x).session hr.2
    | true =>
      have hh : (s.step x).session.provider.held.isSome = true := (Bool.and_eq_true_iff.mp hi).2
      rw [initializations_of_held hr.2 hh]
      exact Nat.le_refl 1

theorem run_append (s : Session) (past more : List Step) :
    s.run (past ++ more) = s.run past ++ (s.after past).run more := by
  induction past generalizing s with
  | nil => rfl
  | cons x past ih =>
    rw [List.cons_append, run, run, ih]
    rfl

theorem length_run (s : Session) (steps : List Step) : (s.run steps).length = steps.length := by
  induction steps generalizing s with
  | nil => rfl
  | cons x steps ih => simp [run, ih]

theorem not_held_after {steps : List Step} (hn : ∀ x ∈ steps, x.needsSettings = false)
    (hh : s.provider.held = none) : (s.after steps).provider.held = none := by
  induction steps generalizing s with
  | nil => exact hh
  | cons x steps ih =>
    obtain ⟨hx, hs⟩ := List.forall_mem_cons.mp hn
    exact ih hs (not_held_of_not_needs hx hh)

/-- The outcomes of the steps between others. -/
theorem between_run (s : Session) (past between rest : List Step) :
    ((s.run (past ++ between ++ rest)).drop past.length).take between.length = (s.after past).run between := by
  rw [List.append_assoc, run_append, run_append, List.drop_left' (s.length_run past),
    List.take_left' (length_run _ between)]

variable {past : List Step}

theorem step_refused (hc : ∀ which text, .set which text ∈ past → text.any CodePoint.isSurrogate = false)
    (hx : x.needsSettings = true) (hh : (initial.after past).provider.held = none)
    (hb : ∃ p, environmentAfter past p = some []) :
    (initial.after past).step x = ⟨initial.after past, [],
      .error (.invalid ((environmentAfter past).blanks.map fun p => ⟨[p.member], .tooShort⟩))⟩ := by
  have he := isCharacters_environmentAfter hc
  rw [← environment_after] at he hb ⊢
  exact step_of_blank hx hh he (Environment.blanks_ne_nil_iff.mpr hb)

theorem step_initializes (hc : ∀ which text, .set which text ∈ past → text.any CodePoint.isSurrogate = false)
    (hx : x.needsSettings = true) (hh : (initial.after past).provider.held = none)
    (hb : ∀ p, environmentAfter past p ≠ some []) :
    Initializes (environmentAfter past) x ((initial.after past).step x) := by
  have he := isCharacters_environmentAfter hc
  rw [← environment_after] at he hb ⊢
  apply initializes_of_no_blank hx hh he
  by_contra hn
  obtain ⟨p, hp⟩ := Environment.blanks_ne_nil_iff.mp hn
  exact hb p hp

/-- A step that needs settings while none are held reports invalid fields exactly if a variable is set to the empty
text. It then leaves the session as it was and logs nothing, and the next step that needs settings once no variable is
blank makes them from the environment of that moment. A run logs as many records of information as it makes settings,
at most one where there is no reset; and renderings with settings of their own have nothing to do with the session. -/
theorem initialization_atomic {steps : List Step}
    (hc : ∀ which text, .set which text ∈ steps → text.any CodePoint.isSurrogate = false) :
    (∀ past x rest outcome, steps = past ++ x :: rest → (initial.run steps)[past.length]? = some outcome →
      x.needsSettings = true → (initial.after past).provider.held = none →
      ((∃ issues, outcome.answer = .error (.invalid issues)) ↔ ∃ p, environmentAfter past p = some []) ∧
      ((∃ p, environmentAfter past p = some []) → outcome.session = initial.after past ∧ outcome.log = [] ∧
        ∀ repair y later, rest = repair ++ y :: later → (∀ z ∈ repair, z.needsSettings = false) →
          y.needsSettings = true → (∀ p, environmentAfter (past ++ x :: repair) p ≠ some []) →
          ∃ next, (initial.run steps)[(past ++ x :: repair).length]? = some next ∧
            Initializes (environmentAfter (past ++ x :: repair)) y next) ∧
      ((∀ p, environmentAfter past p ≠ some []) → Initializes (environmentAfter past) x outcome)) ∧
    infoCount (initial.run steps) = initial.initializations steps ∧
    (∀ past between rest, steps = past ++ between ++ rest → .reset ∉ between →
      infoCount (((initial.run steps).drop past.length).take between.length) ≤ 1) ∧
    ∀ settings arguments base,
      (∃ answer, ∀ s : Session, s.step (.queryString (some settings) arguments) = ⟨s, [], answer⟩) ∧
      ∃ answer, ∀ s : Session, s.step (.url (some settings) arguments base) = ⟨s, [], answer⟩ := by
  refine ⟨?_, infoCount_run initial steps, ?_, ?_⟩
  · rintro past x rest outcome rfl ho hx hh
    rw [getElem?_run] at ho
    obtain rfl := Option.some.inj ho
    have hpast : ∀ which text, .set which text ∈ past → text.any CodePoint.isSurrogate = false :=
      fun which text h => hc which text (List.mem_append_left _ h)
    refine ⟨⟨?_, ?_⟩, ?_, step_initializes hpast hx hh⟩
    · rintro ⟨issues, hi⟩
      by_contra hb
      exact (step_initializes hpast hx hh (not_exists.mp hb)).answer issues hi
    · intro hb
      exact ⟨_, congrArg Outcome.answer (step_refused hpast hx hh hb)⟩
    · intro hb
      have hr := step_refused hpast hx hh hb
      refine ⟨congrArg Outcome.session hr, congrArg Outcome.log hr, ?_⟩
      rintro repair y later rfl hrepair hy hok
      have hs : past ++ x :: (repair ++ y :: later) = (past ++ x :: repair) ++ y :: later := by simp
      rw [hs] at hc ⊢
      refine ⟨_, getElem?_run initial (past ++ x :: repair) y later, step_initializes ?_ hy ?_ hok⟩
      · exact fun which text h => hc which text (List.mem_append_left _ h)
      -- Neither the failure nor what was done about it made settings.
      · have ha : initial.after (past ++ x :: repair) = (initial.after past).after repair := by
          rw [after_append]
          exact congrArg (fun s => Session.after s repair) (congrArg Outcome.session hr)
        rw [ha]
        exact not_held_after hrepair hh
  · rintro past between rest rfl hr
    rw [between_run, infoCount_run]
    exact initializations_le_one _ hr
  · intro settings arguments base
    exact ⟨step_of_idle_rendering rfl rfl, step_of_idle_rendering rfl rfl⟩

/-- A rendering that fails for want of a name, one with settings of its own, and an assignment that makes settings once
the variable is repaired. -/
theorem initialization_atomic_repaired :
    let steps : List Step := [.set .filter "", .queryString none [(.text "limit", .int 5)], .set .filter "where",
      .queryString (some ⟨"a", "b", "c"⟩) [], .assign "sort_query_name" "order", .get]
    (∀ which text, .set which text ∈ steps → text.any CodePoint.isSurrogate = false) ∧
      (∃ refused, (initial.run steps)[1]? = some refused ∧
        (∃ issues, refused.answer = .error (.invalid issues)) ∧ refused.log = []) ∧
      (∃ next, (initial.run steps)[4]? = some next ∧ next.log = [Provider.initialized ⟨"where", "s", "l"⟩]) ∧
      infoCount (initial.run steps) = 1 := by
  intro steps
  have hc : ∀ which text, .set which text ∈ steps → text.any CodePoint.isSurrogate = false := by
    intro which text h
    simp only [steps, List.mem_cons, List.not_mem_nil, or_false, Step.set.injEq, reduceCtorEq, false_or] at h
    rcases h with ⟨rfl, rfl⟩ | ⟨rfl, rfl⟩ <;> decide
  obtain ⟨hattempt, hcount, -, -⟩ := initialization_atomic hc
  have hb : ∃ p, environmentAfter [.set .filter ""] p = some [] := ⟨.filter, by decide⟩
  obtain ⟨hinvalid, hleaves, -⟩ := hattempt [.set .filter ""] _ _ _ rfl rfl rfl rfl
  obtain ⟨-, hlog, hnext⟩ := hleaves hb
  obtain ⟨next, hn, hi⟩ := hnext [.set .filter "where", .queryString (some ⟨"a", "b", "c"⟩) []] _ _ rfl
    (by simp [Step.needsSettings]) rfl (by intro p; cases p <;> decide)
  exact ⟨hc, ⟨_, rfl, hinvalid.mpr hb, hlog⟩, ⟨next, hn, hi.log⟩, by rw [hcount]; rfl⟩

end Session

end FilterQuery
