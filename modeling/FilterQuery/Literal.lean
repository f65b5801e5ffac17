import FilterQuery.Calendar.Timestamp
import FilterQuery.Number.Layout
import FilterQuery.Text.Percent

namespace FilterQuery

inductive Literal where
  | null
  | bool (b : Bool)
  | number (n : Numeral)
  | text (t : Text)
  | instant (t : Timestamp)
deriving DecidableEq, Repr

namespace Literal

def boolToken (b : Bool) : Text := if b then "true" else "false"

def nullToken : Text := "null"

def textToken (t : Text) : Text := (CodePoint.ofChar '$') :: t.escape

def token : Literal → Text
  | null => nullToken
  | bool b => boolToken b
  | number n => n.toText Numeral.wireWords
  | text t => textToken t
  | instant t => t.toText

/-- The literal that a whole token is. -/
def read? (t : Text) : Option Literal :=
  if t = nullToken then some null
  else if t = boolToken true then some (bool true)
  else if t = boolToken false then some (bool false)
  else match Text.after? '$' t with
  | some rest => (Text.unescape? rest).map text
  | none =>
    match Numeral.read? t with
    | some n => some (number n)
    | none => (Timestamp.read? t).map instant

end Literal

end FilterQuery
