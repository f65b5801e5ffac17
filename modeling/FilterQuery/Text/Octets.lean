import FilterQuery.Text.Utf8

namespace FilterQuery

namespace CodePoint

/-- Surrogates that stand for a byte which belongs to no code point. -/
def isLoneByte (c : CodePoint) : Bool := 0xDC80 ≤ c.val && c.val ≤ 0xDCFF

/-- The bytes that a code point stands for. -/
def octets? (c : CodePoint) : Option (List Byte) :=
  if !c.isSurrogate then some c.utf8
  else if h : 0xDC80 ≤ c.val ∧ c.val ≤ 0xDCFF then some [⟨c.val - 0xDC00, by omega⟩]
  else none

end CodePoint

namespace Octets

/-- The code point for a byte that stands alone. -/
def lone (b : Byte) : CodePoint :=
  if b.val < 0x80 then ⟨b.val, by omega⟩ else ⟨0xDC00 + b.val, by omega⟩

/-- The code point, no surrogate, that some bytes are. -/
def codePoint? (bytes : List Byte) : Option CodePoint :=
  match Utf8.decode? bytes with
  | some [c] => if c.isSurrogate then none else some c
  | _ => none

/-- The text of some bytes: each code point takes from one to four of them. -/
def toText (bytes : List Byte) : Text :=
  match bytes with
  | [] => []
  | b :: rest =>
    match [0, 1, 2, 3].findSome? fun k => (codePoint? (b :: rest.take k)).map fun c => (c, k) with
    | some (c, k) => c :: toText (rest.drop k)
    | none => lone b :: toText rest
termination_by bytes.length
decreasing_by
  · simp only [List.length_drop, List.length_cons]; omega
  · simp only [List.length_cons]; omega

/-- The first surrogates in a row of which the first stands for nothing, and how many code points precede. -/
def unencodable? (t : Text) : Option (Nat × Text) :=
  let stands (c : CodePoint) : Bool := !c.isSurrogate || c.isLoneByte
  match t.dropWhile stands with
  | [] => none
  | rest => some ((t.takeWhile stands).length, rest.takeWhile CodePoint.isSurrogate)

/-- The text read back from the bytes of a text. Without surrogates it is the text itself. -/
def normalize (t : Text) : Text :=
  if t.any CodePoint.isSurrogate then toText ((t.filterMap CodePoint.octets?).flatten) else t

end Octets

end FilterQuery
