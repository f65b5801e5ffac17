import FilterQuery.Extras
import FilterQuery.Log
import FilterQuery.Settings.Basic
import FilterQuery.Text.Octets

namespace FilterQuery

/-- Environment variables, those that are set. -/
abbrev Environment := Parameter → Option Text

namespace Environment

def set (e : Environment) (p : Parameter) (t : Option Text) : Environment :=
  fun q => if q = p then t else e q

/-- The settings of an environment: defaults for variables that are not set. -/
def settings (e : Environment) : Except Failure Settings :=
  Settings.validate fun p => some (.text ((e p).getD p.defaultName))

end Environment

/-- Settings as an object, which stays the same object when a name is assigned. -/
structure Held where
  identity : Nat
  settings : Settings

namespace Held

/-- The object with a text for a parameter's name, unchecked. What it holds under other names is never read. -/
def assign (h : Held) (member text : Text) : Except Failure Held :=
  match Parameter.ofMember? member with
  | some p => .ok { h with settings := h.settings.setName p text }
  | none => (Extras.assign [] "ProtocolSettings" member (.text text)).map fun _ => h

end Held

/-- Settings are made when they are first needed, and held until a reset. -/
structure Provider where
  environment : Environment
  held : Option Held
  /-- How many objects have been made so far. -/
  made : Nat

namespace Provider

def initial : Provider := ⟨fun _ => none, none, 0⟩

/-- What an operation leaves: the provider after it, what it logged and what it gave. -/
structure Outcome (α : Type) where
  provider : Provider
  log : List LogRecord
  result : Except Failure α

/-- A variable's text can hold anything that stands for bytes other than zero. -/
def setVariable (p : Provider) (which : Parameter) (t : Text) : Outcome Unit :=
  match Octets.unencodable? t with
  | some (position, surrogates) => ⟨p, [], .error (.unencodable position surrogates)⟩
  | none =>
    if t.any (·.val = 0) then ⟨p, [], .error .embeddedNul⟩
    else ⟨{ p with environment := p.environment.set which (some (Octets.normalize t)) }, [], .ok ()⟩

def unsetVariable (p : Provider) (which : Parameter) : Provider :=
  { p with environment := p.environment.set which none }

def reset (p : Provider) : Provider := { p with held := none }

def initialized (s : Settings) : LogRecord := ⟨.info, "Initialized ProtocolSettings: " ++ s.shown⟩

/-- The settings held, made now if none are. -/
def get (p : Provider) : Outcome Held :=
  match p.held with
  | some held => ⟨p, [], .ok held⟩
  | none =>
    match p.environment.settings with
    | .error failure => ⟨p, [], .error failure⟩
    | .ok s =>
      let held : Held := ⟨p.made, s⟩
      ⟨{ p with held := some held, made := p.made + 1 }, [initialized s], .ok held⟩

/-- Assigns a text to the settings held, made now if none are. -/
def assign (p : Provider) (member text : Text) : Outcome Unit :=
  let got := p.get
  match got.result with
  | .error failure => ⟨got.provider, got.log, .error failure⟩
  | .ok held =>
    match held.assign member text with
    | .error failure => ⟨got.provider, got.log, .error failure⟩
    | .ok assigned => ⟨{ got.provider with held := some assigned }, got.log, .ok ()⟩

/-- What a function makes of the settings held, made now if none are. -/
def withSettings {α : Type} (p : Provider) (f : Settings → Except Failure α) : Outcome α :=
  let got := p.get
  ⟨got.provider, got.log, got.result.bind fun held => f held.settings⟩

end Provider

end FilterQuery
