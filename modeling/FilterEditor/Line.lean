import FilterEditor.Text.Blank

/-!
# Lines

The editable text of one slot with its cursor, an offset in characters between the two ends. A line
holds no line breaks: they are dropped on their way in. Operations that may leave the line as it is
return `none` in that case.
-/

namespace FilterEditor

/-- Editable text with a cursor. -/
structure Line where
  text : Text := []
  cursor : Nat := 0
deriving DecidableEq, Repr

namespace Line

/-- Whether a character may stand in a line. -/
def accepts (c : Char) : Bool := c != '\n' && c != '\r'

/-- The line of a text, without its line breaks, and the cursor at the end. -/
def ofText (text : Text) : Line :=
  let text := text.filter accepts
  ⟨text, text.length⟩

/-- The number of characters. -/
def length (l : Line) : Nat := l.text.length

/-- Whether there are no characters. -/
def isEmpty (l : Line) : Bool := l.text.isEmpty

/-- The text without white space at its ends. -/
def trimmed (l : Line) : Text := l.text.trim

/-- Whether the cursor is before the first character. -/
def atStart (l : Line) : Bool := l.cursor == 0

/-- Whether the cursor is behind the last character. -/
def atEnd (l : Line) : Bool := l.length ≤ l.cursor

/-- Moves the cursor one character to the left. -/
def moveLeft? (l : Line) : Option Line :=
  if l.cursor = 0 then none else some { l with cursor := l.cursor - 1 }

/-- Moves the cursor one character to the right. -/
def moveRight? (l : Line) : Option Line :=
  if l.atEnd then none else some { l with cursor := l.cursor + 1 }

/-- Moves the cursor before the first character. -/
def moveStart (l : Line) : Line := { l with cursor := 0 }

/-- Moves the cursor behind the last character. -/
def moveEnd (l : Line) : Line := { l with cursor := l.length }

/-- Inserts a character at the cursor, unless it is a line break. -/
def insertChar? (c : Char) (l : Line) : Option Line :=
  if accepts c then
    some ⟨l.text.take l.cursor ++ c :: l.text.drop l.cursor, l.cursor + 1⟩
  else none

/-- Inserts a text at the cursor, without its line breaks. -/
def insertText? (text : Text) (l : Line) : Option Line :=
  if text.any accepts then some (text.foldl (fun l c => (l.insertChar? c).getD l) l) else none

/-- Deletes the character before the cursor. -/
def deleteBackward? (l : Line) : Option Line :=
  if l.cursor = 0 then none else some ⟨l.text.eraseIdx (l.cursor - 1), l.cursor - 1⟩

/-- Deletes the character behind the cursor. -/
def deleteForward? (l : Line) : Option Line :=
  if l.atEnd then none else some { l with text := l.text.eraseIdx l.cursor }

end Line
end FilterEditor
