import FilterQuery.Proofs.Provider
import FilterQuery.Settings.Session
import Mathlib.Data.List.Induction

namespace FilterQuery.Session

namespace Step

/-- Whether a step needs the provider's settings. Requests that are not valid are not rendered. -/
def needsSettings : Step → Bool
  | get => true
  | assign _ _ => true
  | queryString none arguments => (Request.ofArguments arguments).isOk
  | url none arguments _ => (Request.ofArguments arguments).isOk
  | _ => false

def isRendering : Step → Bool
  | queryString _ _ => true
  | url _ _ _ => true
  | _ => false

/-- The environment after a step. A text that stands for no bytes, or for a zero byte, is refused. -/
def change (e : Environment) : Step → Environment
  | set which text =>
    if (Octets.unencodable? text).isNone && !text.any (·.val = 0) then
      e.set which (some (Octets.normalize text))
    else e
  | unset which => e.set which none
  | _ => e

/-- The name and the text of an assignment. -/
def assignment? : Step → Option (Text × Text)
  | assign member name => some (member, name)
  | _ => none

end Step

/-- The environment that steps leave, starting with no variable set. -/
def environmentAfter (past : List Step) : Environment := past.foldl Step.change fun _ => none

/-- The assignments among steps. -/
def assignments (steps : List Step) : List (Text × Text) := steps.filterMap Step.assignment?

/-- The session after steps. -/
def after (s : Session) (past : List Step) : Session := past.foldl (fun s x => (s.step x).session) s

theorem after_concat (s : Session) (past : List Step) (x : Step) :
    s.after (past ++ [x]) = ((s.after past).step x).session := by
  rw [after, List.foldl_append]
  rfl

theorem after_append (s : Session) (past more : List Step) :
    s.after (past ++ more) = (s.after past).after more := List.foldl_append

theorem getElem?_run (s : Session) (past : List Step) (x : Step) (rest : List Step) :
    (s.run (past ++ x :: rest))[past.length]? = some ((s.after past).step x) := by
  induction past generalizing s with
  | nil => rfl
  | cons y past ih => exact ih (s.step y).session

/-- The steps that need settings: rendering a valid request is the third kind. -/
theorem needs_cases {x : Step} (hx : x.needsSettings = true) :
    x = .get ∨ (∃ member name, x = .assign member name) ∨
      x.assignment? = none ∧ ∃ f, ∀ s : Session, s.step x = s.carry (s.provider.withSettings f) .text := by
  have hrender {arguments : Entries} {f : Request → Settings → Except Failure Text}
      (hx : (Request.ofArguments arguments).isOk = true) :
      ∃ f', ∀ s : Session, s.render none arguments f = s.carry (s.provider.withSettings f') .text := by
    cases hr : Request.ofArguments arguments with
    | ok r => exact ⟨f r, fun s => by simp only [render, hr]⟩
    | error failure =>
      rw [hr] at hx
      contradiction
  cases x with
  | get => exact .inl rfl
  | assign member name => exact .inr (.inl ⟨member, name, rfl⟩)
  | queryString given arguments =>
    cases given with
    | none => exact .inr (.inr ⟨rfl, hrender hx⟩)
    | some _ => contradiction
  | url given arguments base =>
    cases given with
    | none => exact .inr (.inr ⟨rfl, hrender hx⟩)
    | some _ => contradiction
  | _ => contradiction

/-- A step that needs settings where none can be had fails and leaves the session as it was. -/
theorem step_of_get_error {s : Session} {x : Step} {failure : Failure} (hx : x.needsSettings = true)
    (hg : s.provider.get = ⟨s.provider, [], .error failure⟩) : s.step x = ⟨s, [], .error failure⟩ := by
  obtain rfl | ⟨member, name, rfl⟩ | ⟨-, f, hf⟩ := needs_cases hx
  · simp only [step, hg]
  · simp only [step, carry, Provider.assign, hg]
    rfl
  · simp only [hf, carry, Provider.withSettings, hg]
    rfl

/-- A step that needs settings leaves the object it was given, with its own assignment if it has one. -/
theorem step_of_get_ok {s : Session} {x : Step} {p : Provider} {log : List LogRecord} {held : Held}
    (hx : x.needsSettings = true) (hg : s.provider.get = ⟨p, log, .ok held⟩) (hp : p.held = some held) :
    (s.step x).session.provider = { p with held := some (held.attemptAll (assignments [x])) } := by
  have hp' : { p with held := some held } = p := by rw [← hp]
  obtain rfl | ⟨member, name, rfl⟩ | ⟨hx, f, hf⟩ := needs_cases hx
  · simp only [step, hg]
    exact hp'.symm
  · simp only [step, carry, Provider.assign, hg, assignments, List.filterMap_cons, Step.assignment?,
      List.filterMap_nil, Held.attemptAll, List.foldl_cons, List.foldl_nil, Held.attempt]
    cases held.assign member name with
    | ok assigned => rfl
    | error failure => exact hp'.symm
  · simp only [hf, carry, Provider.withSettings, hg, assignments, List.filterMap_cons, hx]
    exact hp'.symm

/-- A rendering that asks for no settings, because it has its own or the request is not valid, neither looks at the
session nor changes it. -/
theorem step_of_idle_rendering {x : Step} (hr : x.isRendering = true) (hx : x.needsSettings = false) :
    ∃ answer, ∀ s : Session, s.step x = ⟨s, [], answer⟩ := by
  have hrender {given : Option Settings} {arguments : Entries} (f : Request → Settings → Except Failure Text)
      (hg : given = none → (Request.ofArguments arguments).isOk = false) :
      ∃ answer, ∀ s : Session, s.render given arguments f = ⟨s, [], answer⟩ := by
    cases ha : Request.ofArguments arguments with
    | error failure => exact ⟨.error failure, fun s => by simp only [render, ha]⟩
    | ok r =>
      cases given with
      | some settings => exact ⟨(f r settings).map .text, fun s => by simp only [render, ha]⟩
      | none =>
        have := hg rfl
        rw [ha] at this
        contradiction
  cases x with
  | queryString given arguments =>
    apply hrender
    rintro rfl
    exact hx
  | url given arguments base =>
    apply hrender
    rintro rfl
    exact hx
  | _ => contradiction

/-- A step that needs no settings and is no reset does nothing but change the environment. -/
theorem step_of_not_needs {s : Session} {x : Step} (hx : x.needsSettings = false) (hr : x ≠ .reset) :
    (s.step x).session.provider = { s.provider with environment := x.change s.provider.environment } := by
  cases x with
  | set which text =>
    simp only [step, carry, Provider.setVariable, Step.change]
    cases Octets.unencodable? text with
    | some found => rfl
    | none => cases text.any (·.val = 0) <;> rfl
  | unset which => rfl
  | reset => contradiction
  | get => contradiction
  | assign member name => contradiction
  | queryString given arguments =>
    obtain ⟨answer, ha⟩ := step_of_idle_rendering rfl hx
    rw [ha]
    rfl
  | url given arguments base =>
    obtain ⟨answer, ha⟩ := step_of_idle_rendering rfl hx
    rw [ha]
    rfl

/-- What steps do to a provider, by what they find there. -/
inductive Effect (p : Provider) (x : Step) : Provider → Prop where
  | reset (hx : x = .reset) : Effect p x p.reset
  /-- Nothing was asked of the provider. -/
  | idle (hx : x.needsSettings = false) (hr : x ≠ .reset) :
      Effect p x { p with environment := x.change p.environment }
  /-- The object held was given, and assigned to if the step was about that. -/
  | given (held : Held) (hx : x.needsSettings = true) (hh : p.held = some held) :
      Effect p x { p with held := some (held.attemptAll (assignments [x])) }
  /-- An object was made and given. -/
  | made (hx : x.needsSettings = true) (hh : p.held = none) (hu : p.environment.IsUsable) :
      Effect p x { p with held := some (p.fresh.attemptAll (assignments [x])), made := p.made + 1 }
  /-- No object could be made. -/
  | failed (hx : x.needsSettings = true) (hh : p.held = none) (hu : ¬ p.environment.IsUsable) : Effect p x p

theorem step_effect (s : Session) (x : Step) : Effect s.provider x (s.step x).session.provider := by
  by_cases hr : x = .reset
  · subst hr
    exact .reset rfl
  cases hx : x.needsSettings with
  | false =>
    rw [step_of_not_needs hx hr]
    exact .idle hx hr
  | true =>
    obtain ⟨held, hh, hg⟩ | ⟨hh, hu, hg⟩ | ⟨hh, hu, failure, hg⟩ := s.provider.get_cases
    · rw [step_of_get_ok hx hg hh]
      exact .given held hx hh
    · rw [step_of_get_ok hx hg rfl]
      exact .made hx hh hu
    · rw [step_of_get_error hx hg]
      exact .failed hx hh hu

theorem change_of_needs {e : Environment} {x : Step} (hx : x.needsSettings = true) : x.change e = e := by
  cases x <;> first | rfl | contradiction

theorem assignments_of_not_needs {x : Step} (hx : x.needsSettings = false) : assignments [x] = [] := by
  cases x <;> first | rfl | contradiction

namespace Effect

variable {p p' : Provider} {x : Step}

theorem environment (h : Effect p x p') : p'.environment = x.change p.environment := by
  cases h with
  | reset hx =>
    subst hx
    rfl
  | idle hx hr => rfl
  | given held hx hh => exact (change_of_needs hx).symm
  | made hx hh hu => exact (change_of_needs hx).symm
  | failed hx hh hu => exact (change_of_needs hx).symm

theorem made_le (h : Effect p x p') : p.made ≤ p'.made := by
  cases h with
  | made hx hh hu => exact Nat.le_succ _
  | _ => exact Nat.le_refl _

/-- The object held is one of those counted as made. -/
theorem identity_lt (h : Effect p x p') (hp : ∀ held, p.held = some held → held.identity < p.made) :
    ∀ held, p'.held = some held → held.identity < p'.made := by
  intro held hh'
  cases h with
  | reset hx => contradiction
  | idle hx hr => exact hp held hh'
  | given given hx hh =>
    rw [← Option.some.inj hh', given.attemptAll_eq]
    exact hp given hh
  | made hx hh hu =>
    rw [← Option.some.inj hh', p.fresh.attemptAll_eq]
    exact Nat.lt_succ_self p.made
  | failed hx hh hu => exact hp held hh'

end Effect

theorem environment_after (past : List Step) :
    (initial.after past).provider.environment = environmentAfter past := by
  induction past using List.reverseRecOn with
  | nil => rfl
  | append_singleton past x ih =>
    rw [after_concat, (step_effect _ x).environment, ih, environmentAfter, environmentAfter, List.foldl_append]
    rfl

/-- No step since the last reset could be given settings: whenever one needed them, a variable held no name. -/
def Unserved (past : List Step) : Prop :=
  ∀ older x newer, past = older ++ x :: newer → x.needsSettings = true → .reset ∉ newer →
    ¬ (environmentAfter older).IsUsable

/-- The settings in use after some steps were made by `maker`: it needed settings and found a usable
environment, which no earlier step since the last reset did, and there was no reset since. -/
structure Making (past before : List Step) (maker : Step) (since : List Step) : Prop where
  split : past = before ++ maker :: since
  needed : maker.needsSettings = true
  usable : (environmentAfter before).IsUsable
  first : Unserved before
  kept : .reset ∉ since

/-- A step in a history with one more step at its end is that step or one of those before. -/
theorem concat_eq_append_cons {past older newer : List Step} {x y : Step}
    (h : past ++ [x] = older ++ y :: newer) :
    (past = older ∧ x = y ∧ newer = []) ∨ ∃ newer', newer = newer' ++ [x] ∧ past = older ++ y :: newer' := by
  obtain rfl | ⟨newer', z, rfl⟩ := List.eq_nil_or_concat newer
  · obtain ⟨rfl, hx⟩ := List.append_inj' h rfl
    exact .inl ⟨rfl, List.singleton_inj.mp hx, rfl⟩
  · rw [List.concat_eq_append, ← List.cons_append, ← List.append_assoc] at h
    obtain ⟨rfl, hx⟩ := List.append_inj' h rfl
    exact .inr ⟨newer', by rw [List.concat_eq_append, List.singleton_inj.mp hx], rfl⟩

theorem unserved_concat {past : List Step} {x : Step}
    (hx : x.needsSettings = true → ¬ (environmentAfter past).IsUsable)
    (h : x ≠ .reset → Unserved past) : Unserved (past ++ [x]) := by
  intro older y newer hs hy hn
  obtain ⟨rfl, rfl, -⟩ | ⟨newer', rfl, hpast⟩ := concat_eq_append_cons hs
  · exact hx hy
  · rw [List.mem_append, List.mem_singleton, not_or] at hn
    exact h (fun hr => hn.2 hr.symm) older y newer' hpast hy hn.1

namespace Making

variable {past before since : List Step} {maker : Step}

theorem append (h : Making past before maker since) {more : List Step} (hm : .reset ∉ more) :
    Making (past ++ more) before maker (since ++ more) where
  split := by rw [h.split, List.append_assoc, List.cons_append]
  needed := h.needed
  usable := h.usable
  first := h.first
  kept := by
    rw [List.mem_append, not_or]
    exact ⟨h.kept, hm⟩

/-- A maker is no step of a history whose settings were made later with no reset in between. -/
theorem not_earlier {before' since' : List Step} {maker' : Step} (h : Making past before maker since)
    (h' : Making past before' maker' since') (newer : List Step) : before' ≠ before ++ maker :: newer := by
  rintro rfl
  have hs := h.split.symm.trans h'.split
  rw [List.append_assoc, List.append_cancel_left_eq, List.cons_append, List.cons.injEq] at hs
  refine h'.first before maker newer rfl h.needed (fun hn => h.kept ?_) h.usable
  rw [hs.2]
  exact List.mem_append_left _ hn

/-- The settings in use were made once. -/
theorem unique {before' since' : List Step} {maker' : Step} (h : Making past before maker since)
    (h' : Making past before' maker' since') : before' = before ∧ maker' :: since' = maker :: since := by
  have hs := h.split.symm.trans h'.split
  -- Were the makers apart, the later one would come after a making since the last reset.
  obtain ⟨newer, rfl, hn⟩ | ⟨newer, rfl, hn⟩ := List.append_eq_append_iff.mp hs
  · cases newer with
    | nil => exact ⟨List.append_nil _, hn.symm⟩
    | cons x newer =>
      obtain ⟨rfl, -⟩ := List.cons.inj hn
      exact absurd rfl (h.not_earlier h' newer)
  · cases newer with
    | nil => exact ⟨(List.append_nil _).symm, hn⟩
    | cons x newer =>
      obtain ⟨rfl, -⟩ := List.cons.inj hn
      exact absurd rfl (h'.not_earlier h newer)

theorem not_unserved (h : Making past before maker since) : ¬ Unserved past :=
  fun hu => hu before maker since h.split h.needed h.kept h.usable

theorem reset_not_mem (h : Making past before maker since) : .reset ∉ maker :: since := by
  rintro (_ | ⟨_, hr⟩)
  · exact Bool.false_ne_true h.needed
  · exact h.kept hr

end Making

/-- The object that the step after some others would make, as the assignments among steps leave it. -/
def objectOf (before : List Step) (steps : List Step) : Held :=
  (initial.after before).provider.fresh.attemptAll (assignments steps)

/-- What a history tells of the object held after it. -/
def Tells (past : List Step) : Option Held → Prop
  | none => Unserved past
  | some held => ∃ before maker since, Making past before maker since ∧ held = objectOf before (maker :: since)

theorem objectOf_append (before steps more : List Step) :
    objectOf before (steps ++ more) = (objectOf before steps).attemptAll (assignments more) := by
  rw [objectOf, assignments, List.filterMap_append, Held.attemptAll, List.foldl_append]
  rfl

theorem Tells.concat {past : List Step} {held : Held} {x : Step} (h : Tells past (some held))
    (hx : x ≠ .reset) : Tells (past ++ [x]) (some (held.attemptAll (assignments [x]))) := by
  obtain ⟨before, maker, since, hm, rfl⟩ := h
  exact ⟨before, maker, since ++ [x], hm.append (by simpa using hx.symm),
    (objectOf_append before (maker :: since) [x]).symm⟩

/-- What the history told of the object held before a step, it tells after it. -/
theorem tells_effect {past : List Step} {x : Step} {p' : Provider}
    (h : Tells past (initial.after past).provider.held) (he : Effect (initial.after past).provider x p') :
    Tells (past ++ [x]) p'.held := by
  have henv := environment_after past
  -- Only a reset and a making tell of another object; the other effects add the step to what was told before.
  cases he with
  | reset hx =>
    subst hx
    exact unserved_concat (fun hx => by contradiction) (fun hr => absurd rfl hr)
  | idle hx hr =>
    have hx' : ¬ x.needsSettings = true := by rw [hx]; exact Bool.false_ne_true
    cases hh : (initial.after past).provider.held with
    | none =>
      rw [hh] at h
      exact unserved_concat (fun hn => absurd hn hx') fun _ => h
    | some held =>
      rw [hh] at h
      have := h.concat hr
      rwa [assignments_of_not_needs hx] at this
  | given held hx hh =>
    rw [hh] at h
    exact h.concat (by rintro rfl; contradiction)
  | made hx hh hu =>
    rw [hh] at h
    rw [henv] at hu
    exact ⟨past, x, [], ⟨rfl, hx, hu, h, List.not_mem_nil⟩, rfl⟩
  | failed hx hh hu =>
    rw [hh] at h ⊢
    rw [henv] at hu
    exact unserved_concat (fun _ => hu) fun _ => h

theorem tells_after (past : List Step) : Tells past (initial.after past).provider.held := by
  induction past using List.reverseRecOn with
  | nil => exact fun older x newer hs => by simp at hs
  | append_singleton past x ih =>
    rw [after_concat]
    exact tells_effect ih (step_effect _ x)

theorem Making.held_eq {past before since : List Step} {maker : Step} (h : Making past before maker since) :
    (initial.after past).provider.held = some (objectOf before (maker :: since)) := by
  have ht := tells_after past
  cases hh : (initial.after past).provider.held with
  | none =>
    rw [hh] at ht
    exact absurd ht h.not_unserved
  | some held =>
    rw [hh] at ht
    obtain ⟨before', maker', since', h', rfl⟩ := ht
    obtain ⟨rfl, hs⟩ := h.unique h'
    rw [hs]

theorem made_le_after (s : Session) (past : List Step) : s.provider.made ≤ (s.after past).provider.made := by
  induction past generalizing s with
  | nil => exact Nat.le_refl _
  | cons x past ih => exact Nat.le_trans (step_effect s x).made_le (ih (s.step x).session)

theorem identity_lt_made (past : List Step) : ∀ held, (initial.after past).provider.held = some held →
    held.identity < (initial.after past).provider.made := by
  induction past using List.reverseRecOn with
  | nil => exact fun held hh => by contradiction
  | append_singleton past x ih =>
    rw [after_concat]
    exact (step_effect _ x).identity_lt ih

/-- The settings in use after some steps, and the number of the object that holds them: the names of the
environment in which the object was made, under those that assignments to it have given since. -/
def InUse (past : List Step) (number : Nat) (s : Settings) : Prop :=
  ∃ before maker since, Making past before maker since ∧
    number = (initial.after before).provider.made ∧
    s = (environmentAfter before).names.overwrite (Settings.renamings (assignments (maker :: since)))

theorem inUse_of_held {past : List Step} {held : Held} (hh : (initial.after past).provider.held = some held) :
    InUse past held.identity held.settings := by
  have ht := tells_after past
  rw [hh] at ht
  obtain ⟨before, maker, since, hm, rfl⟩ := ht
  rw [objectOf, Held.attemptAll_eq]
  refine ⟨before, maker, since, hm, rfl, ?_⟩
  rw [← environment_after before]
  rfl

theorem unserved_of_not_held {past : List Step} (hh : (initial.after past).provider.held = none) :
    Unserved past := by
  have ht := tells_after past
  rwa [hh] at ht

/-- A get is answered with the object held after it, or fails where none is held. -/
theorem step_get (s : Session) :
    (∃ held, (s.step .get).session.provider.held = some held ∧
      (s.step .get).session.lastGiven = some held.identity ∧
      ∃ same, (s.step .get).answer = .ok (.settings held.settings same)) ∨
    (s.step .get).session.provider.held = none ∧ ∃ failure, (s.step .get).answer = .error failure := by
  obtain ⟨held, hh, hg⟩ | ⟨hh, -, hg⟩ | ⟨hh, -, failure, hg⟩ := s.provider.get_cases
  · simp only [step, hg]
    exact .inl ⟨held, hh, rfl, _, rfl⟩
  · simp only [step, hg]
    exact .inl ⟨_, rfl, rfl, _, rfl⟩
  · simp only [step, hg]
    exact .inr ⟨hh, failure, rfl⟩

/-- A rendering uses the settings held after it, or fails where none are held. -/
theorem carry_withSettings (s : Session) (f : Settings → Except Failure Text) :
    let outcome := s.carry (s.provider.withSettings f) .text
    (∃ held, outcome.session.provider.held = some held ∧ outcome.answer = (f held.settings).map .text) ∨
    outcome.session.provider.held = none ∧ ∃ failure, outcome.answer = .error failure := by
  obtain ⟨held, hh, hg⟩ | ⟨hh, -, hg⟩ | ⟨hh, -, failure, hg⟩ := s.provider.get_cases
  · simp only [carry, Provider.withSettings, hg]
    exact .inl ⟨held, hh, rfl⟩
  · simp only [carry, Provider.withSettings, hg]
    exact .inl ⟨_, rfl, rfl⟩
  · simp only [carry, Provider.withSettings, hg]
    exact .inr ⟨hh, failure, rfl⟩

/-- A rendering after some steps fails where settings cannot be had, and else goes by those in use. -/
theorem answer_of_rendering {past : List Step} {x : Step} {f : Settings → Except Failure Text}
    (hx : (initial.after past).step x =
      (initial.after past).carry ((initial.after past).provider.withSettings f) .text) :
    (Unserved (past ++ [x]) ∧ ∃ failure, ((initial.after past).step x).answer = .error failure) ∨
    ∃ number s, InUse (past ++ [x]) number s ∧ ((initial.after past).step x).answer = (f s).map .text := by
  obtain ⟨held, hh, ha⟩ | ⟨hh, hf⟩ := carry_withSettings (initial.after past) f
  · rw [← hx] at hh ha
    rw [← after_concat] at hh
    exact .inr ⟨held.identity, held.settings, inUse_of_held hh, ha⟩
  · rw [← hx] at hh hf
    rw [← after_concat] at hh
    exact .inl ⟨unserved_of_not_held hh, hf⟩

theorem InUse.number_lt {past : List Step} {number : Nat} {s : Settings} (h : InUse past number s) :
    number < (initial.after past).provider.made := by
  obtain ⟨before, maker, since, hm, rfl, -⟩ := h
  have hlt := identity_lt_made past _ hm.held_eq
  rwa [objectOf, Held.attemptAll_eq] at hlt

/-- Objects in use at two times are one exactly if there was no reset in between. -/
theorem InUse.number_eq_iff {past newer : List Step} {number number' : Nat} {s s' : Settings}
    (h : InUse past number s) (h' : InUse (past ++ newer) number' s') :
    number = number' ↔ .reset ∉ newer := by
  have hlt := h.number_lt
  obtain ⟨before, maker, since, hm, rfl, -⟩ := h
  obtain ⟨before', maker', since', hm', rfl, -⟩ := h'
  constructor
  · intro hn hr
    -- A reset lies before the maker of the later object, so that object was made after `past`.
    obtain ⟨between, rfl, -⟩ | ⟨between, -, hs⟩ := List.append_eq_append_iff.mp hm'.split
    · have hle := made_le_after (initial.after past) between
      rw [← after_append] at hle
      omega
    · refine hm'.reset_not_mem ?_
      rw [hs]
      exact List.mem_append_right between hr
  · intro hn
    rw [(hm.append hn).unique hm' |>.1]

/-- A get that succeeds is given the object in use after it. -/
theorem inUse_of_get {past : List Step} {s : Settings} {same : Bool}
    (ha : ((initial.after past).step .get).answer = .ok (.settings s same)) :
    ∃ number, ((initial.after past).step .get).session.lastGiven = some number ∧
      InUse (past ++ [.get]) number s := by
  obtain ⟨held, hh, hl, same', hs⟩ | ⟨-, failure, hf⟩ := step_get (initial.after past)
  · rw [ha] at hs
    cases hs
    rw [← after_concat] at hh
    exact ⟨held.identity, hl, inUse_of_held hh⟩
  · rw [ha] at hf
    contradiction

/-- Every get that succeeds is given the object that was made first since the last reset, with the names of the
environment of that moment under those assigned since; two gets are given one object exactly if there is no reset
between them; and what is rendered with the provider's settings is rendered with those of that object. -/
theorem given_since_reset {past rest : List Step} {x : Step} {given : Outcome}
    (hgiven : (initial.run (past ++ x :: rest))[past.length]? = some given) :
    (∀ s same, x = .get → given.answer = .ok (.settings s same) →
      ∃ number, given.session.lastGiven = some number ∧ InUse (past ++ [x]) number s ∧
        ∀ earlier newer first t same', past = earlier ++ .get :: newer →
          (initial.run (past ++ x :: rest))[earlier.length]? = some first →
          first.answer = .ok (.settings t same') →
          (first.session.lastGiven = some number ↔ .reset ∉ newer)) ∧
    (∀ arguments r, x = .queryString none arguments → Request.ofArguments arguments = .ok r →
      (Unserved (past ++ [x]) ∧ ∃ failure, given.answer = .error failure) ∨
      ∃ number s, InUse (past ++ [x]) number s ∧ given.answer = (r.queryString s).map .text) ∧
    (∀ arguments base r, x = .url none arguments base → Request.ofArguments arguments = .ok r →
      (Unserved (past ++ [x]) ∧ ∃ failure, given.answer = .error failure) ∨
      ∃ number s, InUse (past ++ [x]) number s ∧ given.answer = (r.url base s).map .text) := by
  rw [getElem?_run] at hgiven
  obtain rfl := Option.some.inj hgiven
  refine ⟨?_, ?_, ?_⟩
  · rintro s same rfl ha
    obtain ⟨number, hl, hu⟩ := inUse_of_get ha
    refine ⟨number, hl, hu, ?_⟩
    rintro earlier newer first t same' rfl hfirst hfa
    rw [List.append_assoc, List.cons_append, getElem?_run] at hfirst
    obtain rfl := Option.some.inj hfirst
    obtain ⟨number', hl', hu'⟩ := inUse_of_get hfa
    have hsplit : earlier ++ .get :: newer ++ [.get] = earlier ++ [.get] ++ (newer ++ [.get]) := by simp
    rw [hsplit] at hu
    rw [hl', Option.some.injEq, hu'.number_eq_iff hu]
    simp
  · rintro arguments r rfl hr
    exact answer_of_rendering (f := r.queryString) (by simp only [step, render, hr])
  · rintro arguments base r rfl hr
    exact answer_of_rendering (f := r.url base) (by simp only [step, render, hr])

/-- A variable set after the first get does not show in the second, an assignment does. -/
theorem given_since_reset_assigned :
    let past : List Step := [.set .filter "q", .get, .set .filter "z", .assign "sort_query_name" "o"]
    let given := (initial.after past).step .get
    (initial.run (past ++ .get :: [.reset, .get]))[past.length]? = some given ∧
      given.answer = .ok (.settings ⟨"q", "o", "l"⟩ true) ∧
      ∃ number, given.session.lastGiven = some number ∧ InUse (past ++ [.get]) number ⟨"q", "o", "l"⟩ := by
  intro past given
  have hg : (initial.run (past ++ .get :: [.reset, .get]))[past.length]? = some given := rfl
  have ha : given.answer = .ok (.settings ⟨"q", "o", "l"⟩ true) := by with_unfolding_all rfl
  obtain ⟨number, hl, hu, -⟩ := (given_since_reset hg).1 _ _ rfl ha
  exact ⟨hg, ha, number, hl, hu⟩

end FilterQuery.Session
