import FilterQuery.Request.Basic

namespace FilterQuery

namespace Request

inductive Step where
  | sortToken
  | queryString
  | url (base : Text)
  | assign (member : Text) (value : Value)
  | appendSort (value : Value)

/-- The answer to a step: a text, or none where there is nothing to say. -/
def answer (s : Settings) (r : Request) : Step → Except Failure (Option Text)
  | .sortToken => r.sortToken
  | .queryString => (r.queryString s).map some
  | .url base => (r.url base s).map some
  | .assign member value => (r.assign member value).map fun _ => none
  | .appendSort value => (r.appendSort value).map fun _ => none

/-- The request after a step. -/
def after (r : Request) : Step → Request
  | .assign member value => (r.assign member value).toOption.getD r
  | .appendSort value => (r.appendSort value).toOption.getD r
  | _ => r

/-- The answers to steps in order. -/
def run (s : Settings) (r : Request) : List Step → List (Except Failure (Option Text))
  | [] => []
  | step :: steps => answer s r step :: run s (r.after step) steps

end Request

end FilterQuery
