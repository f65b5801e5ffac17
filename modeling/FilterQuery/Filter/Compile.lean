import FilterQuery.Filter.Group
import FilterQuery.Log

namespace FilterQuery

namespace Filter

/-- The value that JSON text stands for. A whole number of too many digits fails by itself. -/
def ofJsonText (t : Text) : Except Failure Value :=
  match Json.parse t with
  | .ok j => .ok j.toValue
  | .error fault =>
    match fault.complaint with
    | .longNumber digits => .error (.longNumberRead digits)
    | complaint => .error (.filter (.badJson complaint (.ofRest t fault.rest)))

/-- The description that a value is, or that it holds as JSON text. -/
def description : Value → Except Failure Value
  | .text t => ofJsonText t
  | v => .ok v

/-- What compiling a group writes to the log: only faults of the description are told of. -/
def log : Except Failure Text → List LogRecord
  | .ok token => [⟨.debug, "Compiled filter DSL to: " ++ token⟩]
  | .error (.filter error) => [⟨.error, "Error compiling filter DSL: " ++ error.message⟩]
  | .error _ => []

/-- The token of a group, or its first fault. -/
def compileGroup (hints : Hints) (group : Value) : Except Failure Text :=
  (Group.elaborateAny hints group).map Predicate.token

def compileRule (hints : Hints) (rule : Value) : Except Failure Text :=
  (Rule.elaborateAny hints rule).map Predicate.token

/-- The token of a filter description and the log of compiling it. -/
def compile (hints : Hints) (v : Value) : Except Failure Text × List LogRecord :=
  match description v with
  | .error failure => (.error failure, [])
  | .ok (.dict group) =>
    let result := compileGroup hints (.dict group)
    (result, log result)
  | .ok _ => (.error (.filter .notObject), [])

end Filter

end FilterQuery
