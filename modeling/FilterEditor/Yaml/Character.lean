import FilterEditor.Text.Basic

/-!
# Characters of YAML

Which characters a YAML text may hold, which of them break lines and which are blank. A gap is made of
blanks and breaks; scalars fold their gaps: a single line feed becomes a space, further breaks stay, and
the blanks around breaks go.
-/

namespace FilterEditor.Yaml

/-- Whether a character may stand in a YAML text. -/
def isPermitted (c : Char) : Bool :=
  let n := c.toNat
  n == 0x09 || n == 0x0A || n == 0x0D || (0x20 ≤ n && n ≤ 0x7E) || n == 0x85 ||
    (0xA0 ≤ n && n ≤ 0xD7FF) || (0xE000 ≤ n && n ≤ 0xFFFD) || 0x10000 ≤ n

/-- Whether a character is a space or a tab. -/
def isBlank (c : Char) : Bool := c == ' ' || c == '\t'

/-- Whether a character breaks a line. -/
def isBreak (c : Char) : Bool :=
  c == '\n' || c == '\r' || c == '\x85' || c == '\u2028' || c == '\u2029'

/-- Whether a character belongs to a gap. -/
def isGap (c : Char) : Bool := isBlank c || isBreak c

/-- Whether a character may stand in the name of an anchor. -/
def isWord (c : Char) : Bool := c.isAlphanum || c == '_' || c == '-'

/-- The character that a break means: a line feed, or itself for the two separators of Unicode. -/
def meaning (c : Char) : Char := if c == '\r' || c == '\x85' then '\n' else c

/-- Whether a gap begins here, or the text is over. -/
def atGap : Text → Bool
  | [] => true
  | c :: _ => isGap c

/-- Whether a break begins here, or the text is over. -/
def atLineEnd : Text → Bool
  | [] => true
  | c :: _ => isBreak c

/-- Whether a marker of a document stands here: three dashes or three dots and a gap. -/
def atMarker : Text → Bool
  | '-' :: '-' :: '-' :: rest => atGap rest
  | '.' :: '.' :: '.' :: rest => atGap rest
  | _ => false

/-- What a break at the start of a text means, and the text behind it. -/
def takeBreak : Text → Text × Text
  | '\r' :: '\n' :: rest => (['\n'], rest)
  | c :: rest => if isBreak c then ([meaning c], rest) else ([], c :: rest)
  | [] => ([], [])

/-- The blanks before the first break of a gap, and every break with the blanks behind it. -/
def gapLines : Text → Text × List (Char × Text)
  | [] => ([], [])
  | '\r' :: '\n' :: rest =>
    let (blanks, lines) := gapLines rest
    ([], ('\n', blanks) :: lines)
  | c :: rest =>
    let (blanks, lines) := gapLines rest
    if isBreak c then ([], (meaning c, blanks) :: lines) else (c :: blanks, lines)

/-- What the breaks of a gap become. -/
def foldBreaks : Text → Text
  | ['\n'] => [' ']
  | '\n' :: more => more
  | breaks => breaks

/-- What a gap inside a scalar becomes. -/
def foldGap (gap : Text) : Text :=
  match gapLines gap with
  | (blanks, []) => blanks
  | (_, lines) => foldBreaks (lines.map (·.1))

/-- A place in a text. -/
structure Position where
  line : Nat := 0
  /-- The number of characters since the last break. -/
  column : Nat := 0
  /-- The number of characters since the start. -/
  offset : Nat := 0
deriving DecidableEq, Repr

/-- The place behind the given characters. -/
def Position.after (p : Position) : Text → Position
  | [] => p
  | '\r' :: '\n' :: rest => Position.after ⟨p.line + 1, 0, p.offset + 2⟩ rest
  | c :: rest =>
    if isBreak c then Position.after ⟨p.line + 1, 0, p.offset + 1⟩ rest
    else Position.after ⟨p.line, p.column + 1, p.offset + 1⟩ rest

end FilterEditor.Yaml
