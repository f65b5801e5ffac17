import FilterQuery.Text.Basic

namespace FilterQuery

abbrev Byte := Fin 256

namespace CodePoint

def utf8 (c : CodePoint) : List Byte :=
  if h₁ : c.val < 0x80 then [⟨c.val, by omega⟩]
  else if h₂ : c.val < 0x800 then
    [⟨0xC0 + c.val / 0x40, by omega⟩, ⟨0x80 + c.val % 0x40, by omega⟩]
  else if h₃ : c.val < 0x10000 then
    [⟨0xE0 + c.val / 0x1000, by omega⟩, ⟨0x80 + c.val / 0x40 % 0x40, by omega⟩,
      ⟨0x80 + c.val % 0x40, by omega⟩]
  else
    [⟨0xF0 + c.val / 0x40000, by have := c.val_lt; omega⟩, ⟨0x80 + c.val / 0x1000 % 0x40, by omega⟩,
      ⟨0x80 + c.val / 0x40 % 0x40, by omega⟩, ⟨0x80 + c.val % 0x40, by omega⟩]

end CodePoint

namespace Utf8

def encode (t : Text) : List Byte := t.flatMap CodePoint.utf8

/-- Bytes after the first of a code point. -/
def isTail (b : Byte) : Bool := 0x80 ≤ b.val && b.val < 0xC0

/-- The payloads of tail bytes, most significant first, added to the payload of a leading byte. -/
def payload (lead : Nat) (tail : List Byte) : Nat :=
  tail.foldl (fun n b => n * 0x40 + (b.val - 0x80)) lead

/-- The code point of a leading payload and its tail bytes, unless fewer bytes would have done. -/
def assemble? (least lead : Nat) (tail : List Byte) : Option CodePoint :=
  if tail.all isTail && least ≤ payload lead tail then CodePoint.ofNat? (payload lead tail) else none

def decode? : List Byte → Option Text
  | [] => some []
  | a :: rest₁ =>
    if a.val < 0x80 then do
      return (← CodePoint.ofNat? a.val) :: (← decode? rest₁)
    else match rest₁ with
    | [] => none
    | b :: rest₂ =>
      if a.val < 0xC0 then none
      else if a.val < 0xE0 then do
        return (← assemble? 0x80 (a.val - 0xC0) [b]) :: (← decode? rest₂)
      else match rest₂ with
      | [] => none
      | c :: rest₃ =>
        if a.val < 0xF0 then do
          return (← assemble? 0x800 (a.val - 0xE0) [b, c]) :: (← decode? rest₃)
        else match rest₃ with
        | [] => none
        | d :: rest₄ =>
          if a.val < 0xF8 then do
            return (← assemble? 0x10000 (a.val - 0xF0) [b, c, d]) :: (← decode? rest₄)
          else none

end Utf8

end FilterQuery
