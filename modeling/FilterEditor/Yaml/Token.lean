import FilterEditor.Yaml.Block
import FilterEditor.Yaml.Plain
import FilterEditor.Yaml.Quoted
import FilterEditor.Yaml.Tag

/-!
# Tokens of YAML

A text is cut into tokens from left to right. Outside of brackets, indentation opens and closes block
collections. What stands before a colon only turns out to be a key once the colon is met: until then its
place is remembered, and the token that marks a key is inserted there.
-/

namespace FilterEditor.Yaml

/-- How a scalar is written. -/
inductive Style where
  | plain
  | quoted
  | literal
  | folded
deriving DecidableEq, Repr

/-- A token. -/
inductive Token where
  | directive (directive : Directive)
  | documentStart
  | documentEnd
  | blockSequence
  | blockMapping
  | blockEnd
  | openSequence
  | closeSequence
  | openMapping
  | closeMapping
  /-- The dash before an item of a block sequence. -/
  | item
  | comma
  | key
  | value
  | alias (name : Text)
  | anchor (name : Text)
  | tag (tag : Tag)
  | scalar (style : Style) (text : Text)
deriving DecidableEq, Repr

/-- A place where a key may have begun. -/
structure PossibleKey where
  /-- The number of tokens before it. -/
  index : Nat
  position : Position
  /-- Whether it has to be a key, as it stands where the keys of its block stand. -/
  required : Bool
deriving DecidableEq, Repr

/-- How many characters a key may have without a mark of its own. -/
def keyLimit : Nat := 1024

/-- Whether a colon at a position comes too late for the key. -/
def PossibleKey.isStale (p : Position) (k : PossibleKey) : Bool :=
  k.position.line < p.line || k.position.offset + keyLimit < p.offset

/-- A text that is cut into tokens. -/
structure Scanner where
  rest : Text
  position : Position := {}
  tokens : List Token := []
  /-- The columns of the open block collections, the innermost first. -/
  indents : List Nat := []
  /-- Where a key may have begun, inside the innermost brackets. -/
  key : Option PossibleKey := none
  /-- The same for every pair of brackets around and for the block, the innermost first. -/
  outer : List (Option PossibleKey) := []
  /-- Whether a key may begin here without a mark of its own. -/
  keyAllowed : Bool := true
deriving DecidableEq, Repr

namespace Scanner

/-- Whether the scanner is inside brackets. -/
def inFlow (s : Scanner) : Bool := !s.outer.isEmpty

/-- The least column of what belongs to the innermost open block collection. -/
def least (s : Scanner) : Nat := (s.indents.head?.map (· + 1)).getD 0

/-- Goes on where only `rest` is left. -/
def goTo (rest : Text) (s : Scanner) : Scanner :=
  { s with rest, position := s.position.after (s.rest.take (s.rest.length - rest.length)) }

/-- Adds a token. -/
def emit (t : Token) (s : Scanner) : Scanner := { s with tokens := s.tokens ++ [t] }

/-- Adds a token behind the first ones. -/
def emitAt (index : Nat) (t : Token) (s : Scanner) : Scanner :=
  { s with tokens := s.tokens.take index ++ t :: s.tokens.drop index }

/-- Allows or forbids that a key begins here. -/
def allowKey (keyAllowed : Bool) (s : Scanner) : Scanner := { s with keyAllowed }

/-- Closes the block collections whose columns are not kept. -/
def closeBlocks (keep : Nat → Bool) (s : Scanner) : Scanner :=
  if s.inFlow then s
  else
    let closed := s.indents.takeWhile (!keep ·)
    { s with
      indents := s.indents.dropWhile (!keep ·)
      tokens := s.tokens ++ closed.map fun _ => .blockEnd }

/-- Opens a block collection at a column, unless one is open there; its token goes behind the first
`index` ones. -/
def openBlock (column index : Nat) (t : Token) (s : Scanner) : Scanner :=
  if s.inFlow || column < s.least then s
  else { s.emitAt index t with indents := column :: s.indents }

/-- Opens a block collection here. -/
def openBlockHere (t : Token) (s : Scanner) : Scanner :=
  s.openBlock s.position.column s.tokens.length t

/-- Gives up the place where a key may have begun. -/
def dropKey? (s : Scanner) : Option Scanner :=
  if s.key.any (·.required) then none else some { s with key := none }

/-- Remembers that a key may begin here. -/
def saveKey? (s : Scanner) : Option Scanner :=
  if s.keyAllowed then
    let required := !s.inFlow && s.indents.head? == some s.position.column
    s.dropKey?.map fun s => { s with key := some ⟨s.tokens.length, s.position, required⟩ }
  else some s

/-- Forgets the places that are too far back. -/
def dropStale? (s : Scanner) : Option Scanner :=
  let isStale (k : Option PossibleKey) := k.any (·.isStale s.position)
  if (s.key :: s.outer).any fun k => isStale k && k.any (·.required) then none
  else
    let forget (k : Option PossibleKey) := if isStale k then none else k
    some { s with key := forget s.key, outer := s.outer.map forget }

/-- Skips blanks, comments and breaks, as `flow` is inside brackets or not. A byte order mark is skipped
at the start of a line. Outside of brackets a break allows keys, and tabs are skipped only where no key
may begin. -/
def skipBetween (flow : Bool) (lineStart keyAllowed comment : Bool) : Text → Bool × Text
  | [] => (keyAllowed, [])
  | c :: rest =>
    if isBreak c then skipBetween flow true (keyAllowed || !flow) false rest
    else if comment then skipBetween flow false keyAllowed true rest
    else if lineStart && c == '\ufeff' then skipBetween flow false keyAllowed false rest
    else if c == ' ' || (c == '\t' && (flow || !keyAllowed)) then
      skipBetween flow false keyAllowed false rest
    else if c == '#' then skipBetween flow false keyAllowed true rest
    else (keyAllowed, c :: rest)

/-- Goes to the next token and closes the block collections that end before it. -/
def approach? (s : Scanner) : Option Scanner := do
  let (keyAllowed, rest) :=
    skipBetween s.inFlow (s.position.column == 0) s.keyAllowed false s.rest
  let s ← ((s.goTo rest).allowKey keyAllowed).dropStale?
  some (s.closeBlocks (· ≤ s.position.column))

/-- Ends a text. -/
def finish? (s : Scanner) : Option (List Token) :=
  ((s.closeBlocks fun _ => false).dropKey?).map (·.tokens)

/-- A token that stands outside of all block collections and is followed by `rest`. -/
def outermost? (t : Token) (rest : Text) (s : Scanner) : Option Scanner := do
  let s ← (s.closeBlocks fun _ => false).dropKey?
  some (((s.allowKey false).goTo rest).emit t)

/-- A directive. -/
def directiveLine? (s : Scanner) : Option Scanner := do
  let (d, rest) ← directive? (s.rest.drop 1)
  let rest ← lineEnd? rest
  s.outermost? (.directive d) rest

/-- An opening bracket. -/
def opening? (t : Token) (s : Scanner) : Option Scanner := do
  let s ← s.saveKey?
  let s := { s with key := none, outer := s.key :: s.outer }
  some (((s.allowKey true).goTo (s.rest.drop 1)).emit t)

/-- A closing bracket. -/
def closing? (t : Token) (s : Scanner) : Option Scanner := do
  let s ← s.dropKey?
  let s :=
    match s.outer with
    | [] => s
    | key :: outer => { s with key, outer }
  some (((s.allowKey false).goTo (s.rest.drop 1)).emit t)

/-- A comma inside brackets. -/
def comma? (s : Scanner) : Option Scanner := do
  let s ← s.dropKey?
  some (((s.allowKey true).goTo (s.rest.drop 1)).emit .comma)

/-- The dash before an item of a block sequence. -/
def item? (s : Scanner) : Option Scanner := do
  if !s.inFlow && !s.keyAllowed then none
  else
    let s ← (s.openBlockHere .blockSequence).dropKey?
    some (((s.allowKey true).goTo (s.rest.drop 1)).emit .item)

/-- The mark of a key. -/
def markedKey? (s : Scanner) : Option Scanner := do
  if !s.inFlow && !s.keyAllowed then none
  else
    let s ← (s.openBlockHere .blockMapping).dropKey?
    some (((s.allowKey !s.inFlow).goTo (s.rest.drop 1)).emit .key)

/-- The colon before a value: it makes a key of what was read since the place where one may have
begun. -/
def value? (s : Scanner) : Option Scanner := do
  let s ←
    match s.key with
    | some k =>
      let s := (s.emitAt k.index .key).openBlock k.position.column k.index .blockMapping
      some { s with key := none, keyAllowed := false }
    | none =>
      if !s.inFlow && !s.keyAllowed then none
      else some ((s.openBlockHere .blockMapping).allowKey !s.inFlow)
  some ((s.goTo (s.rest.drop 1)).emit .value)

/-- A token that may begin a key and is followed by `rest`. -/
def mayBeKey? (t : Token) (rest : Text) (s : Scanner) : Option Scanner := do
  let s ← s.saveKey?
  some (((s.allowKey false).goTo rest).emit t)

/-- An anchor or an alias. -/
def name? (toToken : Text → Token) (s : Scanner) : Option Scanner := do
  let (name, rest) ← anchorName? (s.rest.drop 1)
  s.mayBeKey? (toToken name) rest

/-- A tag. -/
def tagged? (s : Scanner) : Option Scanner := do
  let (t, rest) ← tag? s.inFlow s.rest
  s.mayBeKey? (.tag t) rest

/-- A quoted scalar. -/
def quotedScalar? (quote : Quote) (s : Scanner) : Option Scanner := do
  let (text, rest) ← quoted? quote (s.rest.drop 1)
  s.mayBeKey? (.scalar .quoted text) rest

/-- A block scalar. -/
def blockScalar? (literal : Bool) (s : Scanner) : Option Scanner := do
  let (text, rest) ← block? literal s.least (s.rest.drop 1)
  let s ← s.dropKey?
  let style := if literal then Style.literal else Style.folded
  some (((s.allowKey true).goTo rest).emit (.scalar style text))

/-- A plain scalar. -/
def plainScalar? (s : Scanner) : Option Scanner := do
  let scalar ← plain? s.inFlow s.least s.rest
  let s ← s.mayBeKey? (.scalar .plain scalar.text) scalar.rest
  some (if scalar.broken then s.allowKey true else s)

/-- Whether a character cannot start a plain scalar. -/
def isIndicator (c : Char) : Bool :=
  ['-', '?', ':', ',', '[', ']', '\x7b', '\x7d', '#', '&', '*', '!', '|', '>', '\'', '"', '%', '@',
    '\x60'].contains c

/-- Whether a plain scalar starts here. -/
def startsPlain (flow : Bool) : Text → Bool
  | [] => false
  | c :: rest =>
    (!isGap c && !isIndicator c) || (c == '-' && !rest.head?.any isBlank) ||
      (!flow && (c == '?' || c == ':') && !atGap rest)

/-- The next token, which starts here. -/
def token? (s : Scanner) : Option Scanner :=
  let column := s.position.column
  match s.rest with
  | [] => none
  | c :: rest =>
    if column == 0 && c == '%' then s.directiveLine?
    else if column == 0 && atMarker s.rest then
      s.outermost? (if c == '-' then .documentStart else .documentEnd) (s.rest.drop 3)
    else if c == '[' then s.opening? .openSequence
    else if c == '\x7b' then s.opening? .openMapping
    else if c == ']' then s.closing? .closeSequence
    else if c == '\x7d' then s.closing? .closeMapping
    else if c == ',' then s.comma?
    else if c == '-' && atGap rest then s.item?
    else if c == '?' && (s.inFlow || atGap rest) then s.markedKey?
    else if c == ':' && (s.inFlow || atGap rest) then s.value?
    else if c == '*' then s.name? .alias
    else if c == '&' then s.name? .anchor
    else if c == '!' then s.tagged?
    else if c == '|' && !s.inFlow then s.blockScalar? true
    else if c == '>' && !s.inFlow then s.blockScalar? false
    else if c == '\'' then s.quotedScalar? .single
    else if c == '"' then s.quotedScalar? .double
    else if startsPlain s.inFlow s.rest then s.plainScalar?
    else none

/-- The tokens up to the end of the text; `fuel` bounds their number. -/
def tokens? : Nat → Scanner → Option (List Token)
  | 0, _ => none
  | fuel + 1, s => do
    let s ← s.approach?
    if s.rest.isEmpty then s.finish? else tokens? fuel (← s.token?)

end Scanner

/-- The tokens of a text. -/
def tokens? (text : Text) : Option (List Token) :=
  if text.all isPermitted then Scanner.tokens? (text.length + 1) { rest := text } else none

end FilterEditor.Yaml
