import FilterEditor.Text.Basic
import FilterEditor.Text.Literal.Table

/-!
# Quoted text

A text between double quotes in one line of visible characters, for messages about changes:
quotes and backslashes are escaped, the usual control characters have short escapes, and
characters without a shape of their own are shown by their number.
-/

namespace FilterEditor.Literal

/-- Whether a character is shown by its number. -/
def isHidden (c : Char) : Bool :=
  hiddenRanges.any fun r => r.1 ≤ c.toNat && c.toNat ≤ r.2

/-- A character inside double quotes. -/
def encodeChar (c : Char) : Text :=
  if c = '\x00' then ['\\', '0']
  else if c = '\t' then ['\\', 't']
  else if c = '\n' then ['\\', 'n']
  else if c = '\r' then ['\\', 'r']
  else if c = '"' ∨ c = '\\' then ['\\', c]
  else if isHidden c then ['\\', 'u', '\x7b'] ++ Nat.toDigits 16 c.toNat ++ ['\x7d']
  else [c]

/-- A text between double quotes. -/
def quote (text : Text) : Text := '"' :: text.flatMap encodeChar ++ ['"']

end FilterEditor.Literal
