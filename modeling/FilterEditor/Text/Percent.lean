import FilterEditor.Text.Hex

/-!
# Percent-encoding

Columns and values are written into a search string like components of a URI: letters, digits and
a few marks stay as they are, every other character becomes its UTF-8 bytes, each as `%` and two
upper-case hexadecimal digits. Parentheses are encoded, so that a text is never read as a group.
-/

namespace FilterEditor.Percent

/-- Whether a character is written as it is: ASCII letters and digits and `- _ . ~ ! * '`. -/
def isLiteral (c : Char) : Bool :=
  c.isAlphanum || c == '-' || c == '_' || c == '.' || c == '~' || c == '!' || c == '*' ||
    c == '\''

/-- A byte as `%` and two hexadecimal digits. -/
def encodeByte (b : UInt8) : Text := ['%', Hex.digit (b.toNat / 16), Hex.digit (b.toNat % 16)]

/-- A character as it is written. -/
def encodeChar (c : Char) : Text :=
  if isLiteral c then [c] else (String.utf8EncodeChar c).flatMap encodeByte

/-- The encoded form of a text, character by character. -/
def encode (text : Text) : Text := text.flatMap encodeChar

end FilterEditor.Percent
