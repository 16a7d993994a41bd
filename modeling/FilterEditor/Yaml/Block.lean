import FilterEditor.Yaml.Character

/-!
# Block scalars

Scalars over indented lines. A literal one keeps its breaks, a folded one folds those between lines that
do not start with a blank. The header says what becomes of the breaks at the end and, if it has to, how
far the lines are indented; otherwise the first line shows it.
-/

namespace FilterEditor.Yaml

/-- What becomes of the breaks at the end of a block scalar. -/
inductive Chomp where
  /-- None stays. -/
  | strip
  /-- The first one stays. -/
  | clip
  /-- All stay. -/
  | keep
deriving DecidableEq, Repr

/-- The header of a block scalar. -/
structure BlockHeader where
  chomp : Chomp
  /-- How far the lines are indented beyond the surrounding ones. -/
  indent : Option Nat
deriving DecidableEq, Repr

/-- The choice of breaks at the start of a text. -/
def chompMark : Text → Option Chomp × Text
  | '+' :: rest => (some .keep, rest)
  | '-' :: rest => (some .strip, rest)
  | rest => (none, rest)

/-- The indentation at the start of a text; the inner `none` says that there is no digit. -/
def indentMark? : Text → Option (Option Nat × Text)
  | c :: rest =>
    if c == '0' then none
    else if c.isDigit then some (some (c.toNat - 0x30), rest)
    else some (none, c :: rest)
  | [] => some (none, [])

/-- The header behind the first character of a block scalar. -/
def blockHeader? (text : Text) : Option (BlockHeader × Text) := do
  let (chomp, text) := chompMark text
  let (indent, text) ← indentMark? text
  let (chomp, text) := if chomp.isSome || indent.isNone then (chomp, text) else chompMark text
  some (⟨chomp.getD .clip, indent⟩, text)

/-- A text without the characters before its next break. -/
def dropLine (text : Text) : Text := text.dropWhile (!isBreak ·)

/-- What follows the rest of a line that may hold blanks and a comment only. -/
def lineEnd? (text : Text) : Option Text :=
  let text := text.dropWhile isBlank
  let text := if text.head? == some '#' then dropLine text else text
  if atLineEnd text then some (takeBreak text).2 else none

/-- What stands before a line that is not empty. -/
structure Indentation where
  /-- The breaks of the empty lines. -/
  breaks : Text
  /-- The column of the line. -/
  column : Nat
  /-- The largest column that was reached. -/
  widest : Nat
  rest : Text
deriving DecidableEq, Repr

/-- Skips empty lines and the spaces before the next line, but no more than `limit`; a tab among the
spaces is refused. -/
def indentation? (limit : Option Nat) : Nat → Nat → Text → Option Indentation
  | column, widest, [] => some ⟨[], column, max widest column, []⟩
  | column, widest, '\r' :: '\n' :: rest =>
    (indentation? limit 0 (max widest column) rest).map fun i => { i with breaks := '\n' :: i.breaks }
  | column, widest, c :: rest =>
    let inside := limit.all (column < ·)
    if inside && c == ' ' then indentation? limit (column + 1) widest rest
    else if inside && c == '\t' then none
    else if isBreak c then
      (indentation? limit 0 (max widest column) rest).map fun i =>
        { i with breaks := meaning c :: i.breaks }
    else some ⟨[], column, max widest column, c :: rest⟩

/-- A line of a block scalar. -/
structure BlockLine where
  content : Text
  /-- Its break, unless the text is over. -/
  lineBreak : Text
  /-- The breaks of the empty lines behind it. -/
  breaks : Text
deriving DecidableEq, Repr

/-- The lines that are indented by `indent`, from a line at `column` on; `fuel` bounds their number. -/
def blockLines (indent : Nat) : Nat → Nat → Text → Option (List BlockLine × Text)
  | 0, _, _ => none
  | fuel + 1, column, text =>
    if column = indent ∧ text ≠ [] then do
      let content := text.takeWhile (!isBreak ·)
      let (lineBreak, text) := takeBreak (dropLine text)
      let next ← indentation? (some indent) 0 0 text
      let (lines, rest) ← blockLines indent fuel next.column next.rest
      some (⟨content, lineBreak, next.breaks⟩ :: lines, rest)
    else some ([], text)

/-- Whether a line starts with a blank. -/
def BlockLine.startsBlank (line : BlockLine) : Bool := line.content.head?.any isBlank

/-- What stands between two lines. -/
def between (literal : Bool) (line next : BlockLine) : Text :=
  if !literal && line.lineBreak == ['\n'] && !line.startsBlank && !next.startsBlank then
    foldBreaks ('\n' :: line.breaks)
  else line.lineBreak ++ line.breaks

/-- What stays behind the last line. -/
def Chomp.apply (chomp : Chomp) (line : BlockLine) : Text :=
  match chomp with
  | strip => []
  | clip => line.lineBreak
  | keep => line.lineBreak ++ line.breaks

/-- The text of lines. -/
def joinLines (literal : Bool) (chomp : Chomp) : List BlockLine → Text
  | [] => []
  | [last] => last.content ++ chomp.apply last
  | line :: next :: rest =>
    line.content ++ between literal line next ++ joinLines literal chomp (next :: rest)

/-- The text of a block scalar behind its first character, and what follows it; lines are indented by
at least `least`, which is one more than the surrounding ones. -/
def block? (literal : Bool) (least : Nat) (text : Text) : Option (Text × Text) := do
  let (header, text) ← blockHeader? text
  let text ← lineEnd? text
  let limit := header.indent.map (· + (least - 1))
  let start ← indentation? limit 0 0 text
  let indent := limit.getD (max (max start.widest least) 1)
  let (lines, rest) ← blockLines indent (text.length + 1) start.column start.rest
  let breaks := if lines.isEmpty ∧ header.chomp ≠ .keep then [] else start.breaks
  some (breaks ++ joinLines literal header.chomp lines, rest)

end FilterEditor.Yaml
