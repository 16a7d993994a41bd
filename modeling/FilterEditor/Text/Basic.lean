/-!
# Text

A text is the list of its characters, so that positions, lengths and cursors count characters and
every operation on text is an operation on lists. String literals may stand where a text is
expected.
-/

namespace FilterEditor

/-- A text: the list of its characters. -/
abbrev Text := List Char

/-- A string literal stands for the list of its characters. -/
instance : Coe String Text := ⟨String.toList⟩

namespace Text

/-- The decimal digits of a number. -/
def ofNat (n : Nat) : Text := Nat.toDigits 10 n

/-- The texts in order, with `separator` between any two neighbours. -/
def join (separator : Text) (parts : List Text) : Text := separator.intercalate parts

end Text
end FilterEditor
