import FilterEditor.Text.Casing
import FilterEditor.Text.Hex
import FilterEditor.Yaml.Character

/-!
# Writing YAML

A record of scalars as lines `name: value`. Texts are written plain where they read back as the same
text and as nothing else, otherwise between single quotes; texts over several lines become literal blocks,
and what neither form can hold stands between double quotes with escapes.
-/

namespace FilterEditor.Yaml

/-- Whether a character is written as it is outside of escapes. -/
def isPrintable (c : Char) : Bool :=
  let n := c.toNat
  n == 0x0A || (0x20 ≤ n && n ≤ 0x7E) || (0xA0 ≤ n && n ≤ 0xD7FF) ||
    (0xE000 ≤ n && n ≤ 0xFFFD && n != 0xFEFF)

/-- Whether a character of one class stands right before a character of another one. -/
def hasNeighbours (first second : Char → Bool) : Text → Bool
  | a :: b :: rest => (first a && second b) || hasNeighbours first second (b :: rest)
  | _ => false

/-- Whether a character is a space. -/
def isSpace (c : Char) : Bool := c == ' '

/-- Whether a text begins with a mark that has a meaning of its own. -/
def startsMarked : Text → Bool
  | [] => false
  | c :: rest =>
    ['#', ',', '[', ']', '\x7b', '\x7d', '&', '*', '!', '|', '>', '\'', '"', '%', '@',
        '\x60'].contains c ||
      (['?', ':', '-'].contains c && atGap rest)

/-- Whether a colon that ends a key or the start of a comment stands in a text, given the character
before it. -/
def holdsMark (before : Char) : Text → Bool
  | [] => false
  | c :: rest => (c == ':' && atGap rest) || (c == '#' && isGap before) || holdsMark c rest

/-- The words that say nothing or a truth value. -/
def reservedWords : List Text :=
  ["null", "~", "true", "false", "y", "yes", "n", "no", "on", "off"]

/-- Whether a text would read as something else than a text, here or by another reader. -/
def isAmbiguous (text : Text) : Bool :=
  reservedWords.contains (Casing.lowerText text) ||
    match text with
    | [] => true
    | c :: _ => c.isDigit || ['-', '.', '+'].contains c

/-- Whether all of a text can be written without escapes. -/
def isEscapeFree (text : Text) : Bool := text.all isPrintable && !hasNeighbours isSpace isBreak text

/-- Whether a text can be written plain. -/
def fitsPlain (text : Text) : Bool :=
  text.all isPrintable && !text.any isBreak && !text.head?.any isSpace && !text.getLast?.any isSpace &&
    !startsMarked text && !(text.head?.any fun c => holdsMark c (text.drop 1))

/-- Whether a text can be written between single quotes. -/
def fitsSingle (text : Text) : Bool := isEscapeFree text && !hasNeighbours isBreak isSpace text

/-- Whether a text can be written as a literal block. -/
def fitsLiteral (text : Text) : Bool := isEscapeFree text && !text.getLast?.any isSpace

/-- How a text is written. -/
inductive TextForm where
  | plain
  | single
  | double
  | literal
deriving DecidableEq, Repr

/-- The form that a text is written in. -/
def TextForm.of (text : Text) : TextForm :=
  if text.contains '\n' then if fitsLiteral text then literal else double
  else if !isAmbiguous text && fitsPlain text then plain
  else if fitsSingle text then single
  else double

/-- The spaces before the lines of a text. -/
def margin : Text := [' ', ' ']

/-- A text between single quotes, behind the first one; `broken` says whether a break was written
last. -/
def writeSingle (broken : Bool) : Text → Text
  | [] => (if broken then margin else []) ++ ['\'']
  | c :: rest =>
    if isBreak c then c :: writeSingle true rest
    else
      (if broken then margin else []) ++ (if c == '\'' then ['\'', '\''] else [c]) ++
        writeSingle false rest

/-- The escapes of one character. -/
def writtenEscapes : List (Char × Char) :=
  [('\x00', '0'), ('\x07', 'a'), ('\x08', 'b'), ('\t', 't'), ('\n', 'n'), ('\x0b', 'v'), ('\x0c', 'f'),
    ('\r', 'r'), ('\x1b', 'e'), ('"', '"'), ('\\', '\\'), ('\x85', 'N'), ('\u2028', 'L'),
    ('\u2029', 'P')]

/-- A character by its number. -/
def numberEscape (n : Nat) : Text :=
  if n ≤ 0xFF then 'x' :: Hex.digits 2 n
  else if n ≤ 0xFFFF then 'u' :: Hex.digits 4 n
  else 'U' :: Hex.digits 8 n

/-- A character between double quotes. -/
def doubleChar (c : Char) : Text :=
  match writtenEscapes.lookup c with
  | some letter => ['\\', letter]
  | none => if isPrintable c then [c] else '\\' :: numberEscape c.toNat

/-- The lines of a literal block; `fresh` says whether a line begins. -/
def writeLines (fresh : Bool) : Text → Text
  | [] => []
  | c :: rest =>
    if isBreak c then c :: writeLines true rest
    else (if fresh then margin else []) ++ c :: writeLines false rest

/-- What the header of a literal block says: the indentation, where the first line would not show it,
and what becomes of the breaks at the end. -/
def literalHints (text : Text) : Text :=
  (if text.head?.any fun c => isSpace c || isBreak c then ['2'] else []) ++
    match text.reverse with
    | [] => ['-']
    | [last] => if isBreak last then ['+'] else ['-']
    | last :: before :: _ =>
      if !isBreak last then ['-'] else if isBreak before then ['+'] else []

/-- A text as a value. -/
def writeText (text : Text) : Text :=
  match TextForm.of text with
  | .plain => text
  | .single => '\'' :: writeSingle false text
  | .double => '"' :: text.flatMap doubleChar ++ ['"']
  | .literal => '|' :: literalHints text ++ '\n' :: writeLines true text

/-- A truth value as a value. -/
def writeBool (value : Bool) : Text := if value then "true" else "false"

/-- A field of a record; its last line ends in a break. -/
def writeField (name value : Text) : Text :=
  name ++ ':' :: ' ' :: value ++ if value.getLast?.any isBreak then [] else ['\n']

end FilterEditor.Yaml
