import FilterQuery.Request.Basic
import FilterQuery.Settings.Provider

namespace FilterQuery

/-- A provider, and which object the last successful step that asked for the settings was given. -/
structure Session where
  provider : Provider
  lastGiven : Option Nat

namespace Session

def initial : Session := ⟨.initial, none⟩

inductive Step where
  | set (which : Parameter) (text : Text)
  | unset (which : Parameter)
  | reset
  | get
  | assign (member name : Text)
  | queryString (given : Option Settings) (arguments : Entries)
  | url (given : Option Settings) (arguments : Entries) (base : Text)

inductive Answer where
  | done
  /-- The settings, and whether they are the object given last. -/
  | settings (s : Settings) (same : Bool)
  | text (t : Text)

/-- The session after a step, its log and its answer. -/
structure Outcome where
  session : Session
  log : List LogRecord
  answer : Except Failure Answer

/-- The outcome of what a provider did, where the object given last stays. -/
def carry {α : Type} (s : Session) (outcome : Provider.Outcome α) (answer : α → Answer) : Outcome :=
  ⟨{ s with provider := outcome.provider }, outcome.log, outcome.result.map answer⟩

/-- Renders a request with the settings given with the step, else with those held. A request that is not
valid asks for none. -/
def render (s : Session) (given : Option Settings) (arguments : Entries)
    (f : Request → Settings → Except Failure Text) : Outcome :=
  match Request.ofArguments arguments, given with
  | .error failure, _ => ⟨s, [], .error failure⟩
  | .ok r, some settings => ⟨s, [], (f r settings).map .text⟩
  | .ok r, none => s.carry (s.provider.withSettings (f r)) .text

def step (s : Session) : Step → Outcome
  | .set which text => s.carry (s.provider.setVariable which text) fun _ => .done
  | .unset which => ⟨{ s with provider := s.provider.unsetVariable which }, [], .ok .done⟩
  | .reset => ⟨{ s with provider := s.provider.reset }, [], .ok .done⟩
  | .get =>
    let got := s.provider.get
    match got.result with
    | .error failure => ⟨{ s with provider := got.provider }, got.log, .error failure⟩
    | .ok held =>
      ⟨⟨got.provider, some held.identity⟩, got.log,
        .ok (.settings held.settings (s.lastGiven = some held.identity))⟩
  | .assign member name => s.carry (s.provider.assign member name) fun _ => .done
  | .queryString given arguments => s.render given arguments Request.queryString
  | .url given arguments base => s.render given arguments fun r settings => r.url base settings

/-- The outcomes of steps in order. -/
def run (s : Session) : List Step → List Outcome
  | [] => []
  | next :: steps => s.step next :: run (s.step next).session steps

end Session

end FilterQuery
