import FilterEditor.Yaml.Character

/-!
# Plain scalars

Scalars without quotes. They end before a colon that a gap follows and before a comment; inside brackets
also before a bracket or a comma, outside of them where a line is not indented enough.
-/

namespace FilterEditor.Yaml

/-- Whether a character has a meaning of its own inside brackets. -/
def isFlowMark (c : Char) : Bool :=
  c == ',' || c == '[' || c == ']' || c == '\x7b' || c == '\x7d'

/-- Whether a colon stands here that may not stand in a plain scalar inside brackets. -/
def misplacedColon : Text → Bool
  | ':' :: c :: _ => isFlowMark c || c == '?'
  | _ => false

/-- Whether a plain scalar ends here. -/
def plainStops (flow : Bool) : Text → Bool
  | [] => true
  | c :: rest => (c == ':' && atGap rest) || (flow && isFlowMark c)

/-- The characters of a plain scalar up to the next gap or its end, and what follows them. -/
def plainRun (flow : Bool) : Text → Option (Text × Text)
  | [] => some ([], [])
  | c :: rest =>
    if isGap c then some ([], c :: rest)
    else if flow && misplacedColon (c :: rest) then none
    else if plainStops flow (c :: rest) then some ([], c :: rest)
    else (plainRun flow rest).map fun (run, rest) => (c :: run, rest)

/-- Whether a plain scalar is over behind a gap: `lines` are the breaks of the gap with the blanks
behind them, `rest` is what follows. -/
def plainOver (flow : Bool) (indent : Nat) (lines : List (Char × Text)) (rest : Text) : Bool :=
  rest.head? == some '#' || plainStops flow rest ||
    match lines.getLast? with
    | none => false
    | some (_, blanks) =>
      (!flow && blanks.length < indent) || (blanks.isEmpty && atMarker rest)

/-- Whether a tab stands where lines have to be indented by spaces. -/
def tabIndented (indent : Nat) (lines : List (Char × Text)) : Bool :=
  lines.any fun line => (line.2.take indent).contains '\t'

/-- A plain scalar that was read. -/
structure PlainScalar where
  text : Text
  /-- Whether a break stands between the scalar and what follows. -/
  broken : Bool
  /-- What follows the scalar and the gap behind it. -/
  rest : Text
deriving DecidableEq, Repr

/-- The plain scalar at the start of a text; lines of the scalar are indented by `indent`, `fuel` bounds
the number of gaps. -/
def plainFrom (flow : Bool) (indent : Nat) : Nat → Text → Option PlainScalar
  | 0, _ => none
  | fuel + 1, text => do
    let (run, text) ← plainRun flow text
    let gap := text.takeWhile isGap
    if gap.isEmpty then some ⟨run, false, text⟩
    else
      let lines := (gapLines gap).2
      let rest := text.dropWhile isGap
      if tabIndented indent lines then none
      else if plainOver flow indent lines rest then some ⟨run, !lines.isEmpty, rest⟩
      else
        let more ← plainFrom flow indent fuel rest
        some { more with text := run ++ foldGap gap ++ more.text }

/-- The plain scalar at the start of a text. -/
def plain? (flow : Bool) (indent : Nat) (text : Text) : Option PlainScalar :=
  plainFrom flow indent (text.length + 1) text

end FilterEditor.Yaml
