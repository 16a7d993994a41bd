import FilterEditor.Text.Hex
import FilterEditor.Yaml.Character

/-!
# Quoted scalars

Scalars between single or double quotes. Between single quotes the quote is written twice and nothing
else is special; between double quotes a backslash starts an escape. Both fold their gaps, and no line
may begin with a marker of a document.
-/

namespace FilterEditor.Yaml

/-- How a scalar is quoted. -/
inductive Quote where
  | single
  | double
deriving DecidableEq, Repr

/-- The character at both ends of a quoted scalar. -/
def Quote.mark : Quote → Char
  | single => '\''
  | double => '"'

/-- The escapes of one character. -/
def shortEscapes : List (Char × Char) :=
  [('0', '\x00'), ('a', '\x07'), ('b', '\x08'), ('t', '\t'), ('\t', '\t'), ('n', '\n'), ('v', '\x0b'),
    ('f', '\x0c'), ('r', '\r'), ('e', '\x1b'), (' ', ' '), ('"', '"'), ('/', '/'), ('\\', '\\'),
    ('N', '\x85'), ('_', '\xa0'), ('L', '\u2028'), ('P', '\u2029')]

/-- How many hexadecimal digits follow the letter of an escape by number. -/
def escapeWidths : List (Char × Nat) := [('x', 2), ('u', 4), ('U', 8)]

/-- The character of a number, if it is one. -/
def charOf? (n : Nat) : Option Char := if n.isValidChar then some (Char.ofNat n) else none

/-- The character of an escape behind its backslash, and the text behind the escape. -/
def escape? : Text → Option (Char × Text)
  | [] => none
  | c :: rest =>
    match escapeWidths.lookup c with
    | some width => do
      let digits := rest.take width
      if digits.length < width then none
      else
        let n ← Hex.number? digits
        let c ← charOf? n
        some (c, rest.drop width)
    | none => (shortEscapes.lookup c).map fun c => (c, rest)

/-- Whether a gap ends in a break and a marker of a document follows. -/
def meetsMarker (gap rest : Text) : Bool := gap.getLast?.any isBreak && atMarker rest

/-- What a gap behind an escaped break becomes: its breaks. -/
def escapedGap (gap : Text) : Text := (gapLines gap).2.map (·.1)

/-- The text of a quoted scalar behind its first quote, and what follows its last one; `fuel` bounds
the number of steps. -/
def quotedFrom (quote : Quote) : Nat → Text → Option (Text × Text)
  | 0, _ => none
  | _, [] => none
  | fuel + 1, c :: rest =>
    if isGap c then
      let gap := (c :: rest).takeWhile isGap
      let rest := rest.dropWhile isGap
      if meetsMarker gap rest then none
      else (quotedFrom quote fuel rest).map fun (text, rest) => (foldGap gap ++ text, rest)
    else if c == quote.mark then
      match quote, rest with
      | .single, '\'' :: rest =>
        (quotedFrom quote fuel rest).map fun (text, rest) => ('\'' :: text, rest)
      | _, _ => some ([], rest)
    else if c == '\\' && quote == .double then
      if rest.head?.any isBreak then
        let (_, behind) := takeBreak rest
        let gap := behind.takeWhile isGap
        let behind := behind.dropWhile isGap
        if meetsMarker ('\n' :: gap) behind then none
        else (quotedFrom quote fuel behind).map fun (text, rest) => (escapedGap gap ++ text, rest)
      else do
        let (c, rest) ← escape? rest
        (quotedFrom quote fuel rest).map fun (text, rest) => (c :: text, rest)
    else (quotedFrom quote fuel rest).map fun (text, rest) => (c :: text, rest)

/-- The text of a quoted scalar behind its first quote, and what follows its last one. -/
def quoted? (quote : Quote) (text : Text) : Option (Text × Text) :=
  quotedFrom quote (text.length + 1) text

end FilterEditor.Yaml
