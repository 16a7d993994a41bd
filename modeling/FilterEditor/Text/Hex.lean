import FilterEditor.Text.Basic

/-!
# Hexadecimal digits

Digits to the base sixteen: written in upper case, read in either case.
-/

namespace FilterEditor.Hex

/-- The upper-case digit of a number below sixteen. -/
def digit (n : Nat) : Char :=
  if n < 10 then Char.ofNat (0x30 + n) else Char.ofNat (0x37 + n)

/-- The last `width` digits of a number, with leading zeros. -/
def digits : Nat → Nat → Text
  | 0, _ => []
  | width + 1, n => digits width (n / 16) ++ [digit (n % 16)]

/-- The value of a digit. -/
def value? (c : Char) : Option Nat :=
  if '0' ≤ c ∧ c ≤ '9' then some (c.toNat - 0x30)
  else if 'a' ≤ c ∧ c ≤ 'f' then some (c.toNat - 0x57)
  else if 'A' ≤ c ∧ c ≤ 'F' then some (c.toNat - 0x37)
  else none

/-- The value of digits, the first of which counts most. -/
def number? (text : Text) : Option Nat :=
  text.foldlM (fun n c => (value? c).map (16 * n + ·)) 0

end FilterEditor.Hex
