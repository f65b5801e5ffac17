import FilterQuery.Failure
import FilterQuery.Literal

namespace FilterQuery

/-- The literal of the instant that a datetime names. -/
def Literal.ofDateTime (d : DateTime) : Except Failure Literal :=
  d.toUtc.map fun civil => .instant (.ofCivil civil)

namespace Datatype

/-- A text as a number of a datatype, whole numbers only for `int`. -/
def readNumber? (d : Datatype) (t : Text) : Option Numeral :=
  if d = int then (Number.readInt? t).map Numeral.ofInt
  else (Number.readFloat? t).map Numeral.ofFloat

/-- Numbers keep their own kind, whichever of the two datatypes asks for them. -/
def numberLiteral (d : Datatype) : Value → Except Failure Literal
  | .int n =>
    if (Value.int n).isPrintable then .ok (.number (.ofInt n)) else .error .longNumberWritten
  | .float x => .ok (.number (.ofFloat x))
  | .bool b => .ok (.number (.ofInt (if b then 1 else 0)))
  | .text t =>
    match d.readNumber? t with
    | some n => .ok (.number n)
    | none => .error (.filter (.badNumber (.text t) d))
  | v => .error (.showing [v] (.filter (.badNumber v d)))

/-- A truth value in any case with blanks around. Only ASCII capitals have one of these letters as their
small form, so lowering those alone decides. -/
def readBool? (t : Text) : Option Bool :=
  let word := Text.toAsciiLower (Text.trim CodePoint.isBlank t)
  if word = Literal.boolToken true then some true
  else if word = Literal.boolToken false then some false
  else none

def boolLiteral : Value → Except Failure Literal
  | .bool b => .ok (.bool b)
  | v => do
    match readBool? (← v.plain?) with
    | some b => return .bool b
    | none => .error (.filter (.badBoolean v))

/-- An ISO text with blanks around; a Z means an offset of zero wherever it stands. -/
def readDateTime? (t : Text) : Option DateTime :=
  Iso.readDateTime? (Text.substitute 'Z' "+00:00" (Text.trim CodePoint.isBlank t))

def instantLiteral : Value → Except Failure Literal
  | .date d => Literal.ofDateTime (.ofDate d)
  | .dateTime d => Literal.ofDateTime d
  | .text t =>
    match readDateTime? t with
    | some d => Literal.ofDateTime d
    | none => .error (.filter (.badInstantText (.text t)))
  | v => .error (.showing [v] (.filter (.badInstant v)))

def literal (d : Datatype) : Value → Except Failure Literal
  | .null => .ok .null
  | v =>
    match d with
    | int => numberLiteral int v
    | float => numberLiteral float v
    | boolean => boolLiteral v
    | datetime => instantLiteral v
    | string => v.plain?.map .text

end Datatype

end FilterQuery
