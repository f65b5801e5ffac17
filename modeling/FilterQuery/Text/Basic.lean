namespace FilterQuery

/-- A Unicode code point, surrogates included. -/
structure CodePoint where
  val : Nat
  val_lt : val < 0x110000
deriving DecidableEq, Repr

namespace CodePoint

/-- The code point of a character. -/
def ofChar (c : Char) : CodePoint :=
  ⟨c.toNat, match c.valid with
    | .inl h => Nat.lt_trans h (by decide)
    | .inr h => h.2⟩

instance : Coe Char CodePoint := ⟨ofChar⟩

/-- Numbers past the last code point name none. -/
def ofNat? (n : Nat) : Option CodePoint :=
  if h : n < 0x110000 then some ⟨n, h⟩ else none

def isSurrogate (c : CodePoint) : Bool := 0xD800 ≤ c.val && c.val ≤ 0xDFFF

def isAscii (c : CodePoint) : Bool := c.val < 0x80

/-- The digits 0 to 9, and no digit of another script. -/
def isAsciiDigit (c : CodePoint) : Bool := 0x30 ≤ c.val && c.val ≤ 0x39

def isAsciiUpper (c : CodePoint) : Bool := 0x41 ≤ c.val && c.val ≤ 0x5A

def isAsciiLower (c : CodePoint) : Bool := 0x61 ≤ c.val && c.val ≤ 0x7A

/-- There are digits, so numerals name some. -/
instance neZero_ten : @NeZero Nat Zero.ofOfNat0 10 := ⟨by decide⟩

/-- The value of an ASCII digit. -/
def digit? (c : CodePoint) : Option (Fin 10) :=
  if h : 0x30 ≤ c.val ∧ c.val ≤ 0x39 then some ⟨c.val - 0x30, by omega⟩ else none

/-- The digit of a value. -/
def ofDigit (d : Fin 10) : CodePoint := ⟨0x30 + d.val, by omega⟩

@[simp] theorem digit?_ofDigit (d : Fin 10) : (ofDigit d).digit? = some d := by
  have h : 0x30 ≤ (ofDigit d).val ∧ (ofDigit d).val ≤ 0x39 := by
    constructor <;> simp only [ofDigit] <;> omega
  rw [digit?, dif_pos h]
  exact congrArg some (Fin.ext (Nat.add_sub_cancel_left ..))

/-- A capital ASCII letter becomes small; all else stays. -/
def toAsciiLower (c : CodePoint) : CodePoint :=
  if h : 0x41 ≤ c.val ∧ c.val ≤ 0x5A then ⟨c.val + 0x20, by omega⟩ else c

/-- The value of a hexadecimal digit, in either case. -/
def hexValue? (c : CodePoint) : Option (Fin 16) :=
  if h : 0x30 ≤ c.val ∧ c.val ≤ 0x39 then some ⟨c.val - 0x30, by omega⟩
  else if h : 0x41 ≤ c.val ∧ c.val ≤ 0x46 then some ⟨c.val - 0x37, by omega⟩
  else if h : 0x61 ≤ c.val ∧ c.val ≤ 0x66 then some ⟨c.val - 0x57, by omega⟩
  else none

/-- The hexadecimal digit of a value, in capitals. -/
def ofHexUpper (d : Fin 16) : CodePoint :=
  if d.val < 10 then ⟨0x30 + d.val, by omega⟩ else ⟨0x37 + d.val, by omega⟩

/-- The hexadecimal digit of a value, in small letters. -/
def ofHexLower (d : Fin 16) : CodePoint :=
  if d.val < 10 then ⟨0x30 + d.val, by omega⟩ else ⟨0x57 + d.val, by omega⟩

end CodePoint

/-- A text is the list of its code points. -/
abbrev Text := List CodePoint

namespace Text

def ofString (s : String) : Text := s.toList.map CodePoint.ofChar

instance : Coe String Text := ⟨ofString⟩

/-- The texts in order, with a separator between neighbours. -/
def join (separator : Text) : List Text → Text
  | [] => []
  | [t] => t
  | t :: rest => t ++ separator ++ join separator rest

/-- Whether a piece stands anywhere in a text. -/
def occursIn (piece : Text) : Text → Bool
  | [] => piece.isEmpty
  | c :: rest => piece.isPrefixOf (c :: rest) || occursIn piece rest

/-- The text less the code points of a class at both ends. -/
def trim (blank : CodePoint → Bool) (t : Text) : Text :=
  ((t.dropWhile blank).reverse.dropWhile blank).reverse

/-- Every occurrence of one code point is replaced by a text. -/
def substitute (old : CodePoint) (new : Text) (t : Text) : Text :=
  t.flatMap fun c => if c = old then new else [c]

/-- The text with its ASCII capitals made small. -/
def toAsciiLower (t : Text) : Text := t.map CodePoint.toAsciiLower

/-- A text continues with the expected code point: the rest after it. -/
def after? (c : CodePoint) : Text → Option Text
  | [] => none
  | d :: rest => if d = c then some rest else none

theorem after?_eq_some_iff {c : CodePoint} {t rest : Text} :
    after? c t = some rest ↔ t = c :: rest := by
  cases t with
  | nil => simp [after?]
  | cons d tail =>
    simp only [after?, List.cons.injEq]
    split <;> simp_all

@[simp] theorem after?_cons (c : CodePoint) (t : Text) : after? c (c :: t) = some t :=
  after?_eq_some_iff.mpr rfl

end Text

end FilterQuery
