import FilterEditor.Text.Basic

/-!
# White space

The characters with the Unicode property `White_Space`, and trimming them off the ends of a text.
-/

namespace FilterEditor.Text

/-- Whether a character has the Unicode property `White_Space`. -/
def isBlank (c : Char) : Bool :=
  let n := c.toNat
  (9 ≤ n && n ≤ 13) || n == 0x20 || n == 0x85 || n == 0xA0 || n == 0x1680 ||
    (0x2000 ≤ n && n ≤ 0x200A) || n == 0x2028 || n == 0x2029 || n == 0x202F || n == 0x205F ||
    n == 0x3000

/-- A text without the white space at its start. -/
def trimStart (text : Text) : Text := text.dropWhile isBlank

/-- A text without the white space at its end. -/
def trimEnd (text : Text) : Text := (text.reverse.dropWhile isBlank).reverse

/-- A text without the white space at its ends. -/
def trim (text : Text) : Text := trimEnd (trimStart text)

end FilterEditor.Text
