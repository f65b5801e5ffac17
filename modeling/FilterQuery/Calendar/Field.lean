import FilterQuery.Text.Basic

namespace FilterQuery.Calendar

/-- The last `width` digits of a number. -/
def field : Nat → Nat → Text
  | 0, _ => []
  | width + 1, n => field width (n / 10) ++ [CodePoint.ofDigit ⟨n % 10, by omega⟩]

@[simp] theorem length_field (width n : Nat) : (field width n).length = width := by
  induction width generalizing n with
  | zero => rfl
  | succ width ih => simp [field, ih]

/-- A number of exactly `width` ASCII digits at the front of a text, and the rest. -/
def readField? : Nat → Text → Option (Nat × Text)
  | 0, t => some (0, t)
  | width + 1, t => do
    let (n, rest) ← readField? width t
    match rest with
    | [] => none
    | c :: rest => return (n * 10 + (← c.digit?).val, rest)

end FilterQuery.Calendar
