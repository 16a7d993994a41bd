import FilterEditor.Text.Basic
import FilterEditor.Text.Casing.Table

/-!
# Upper and lower case

The full case mappings of Unicode: a character may map to several, and a capital sigma that ends a
word becomes a final sigma when a whole text is lowered.
-/

namespace FilterEditor.Casing

/-- Whether a code point lies in one of the closed intervals. -/
def inRanges (ranges : List (Nat × Nat)) (n : Nat) : Bool :=
  ranges.any fun r => r.1 ≤ n && n ≤ r.2

/-- The image of a code point in a run that holds it. -/
def Run.map? (r : Run) (n : Nat) : Option Nat :=
  if r.first ≤ n ∧ n ≤ r.last ∧ (n - r.first) % r.step = 0 then some (r.image + (n - r.first))
  else none

/-- Maps a character by the expansions, else by the runs, else to itself. -/
def mapChar (expansions : List (Nat × List Nat)) (runs : List Run) (c : Char) : Text :=
  match expansions.lookup c.toNat with
  | some image => image.map Char.ofNat
  | none =>
    match runs.findSome? (·.map? c.toNat) with
    | some image => [Char.ofNat image]
    | none => [c]

/-- The lower case of a character on its own. -/
def lower (c : Char) : Text := mapChar lowerExpansions lowerRuns c

/-- The upper case of a character. -/
def upper (c : Char) : Text := mapChar upperExpansions upperRuns c

/-- Whether the first character that case ignores not has case. -/
def startsCased (text : Text) : Bool :=
  match text.dropWhile fun c => inRanges ignorableRanges c.toNat with
  | [] => false
  | c :: _ => inRanges casedRanges c.toNat

/-- Lowers a text, given what stands before it in reverse. -/
def lowerAfter (before : Text) : Text → Text
  | [] => []
  | c :: rest =>
    let image :=
      if c = 'Σ' then if startsCased before && !startsCased rest then ['ς'] else ['σ']
      else lower c
    image ++ lowerAfter (c :: before) rest

/-- The lower case of a text; a capital sigma at the end of a word becomes a final sigma. -/
def lowerText (text : Text) : Text := lowerAfter [] text

/-- A text with its first character in lower case. -/
def lowerFirst : Text → Text
  | [] => []
  | c :: rest => lower c ++ rest

/-- A text with its first character in upper case. -/
def upperFirst : Text → Text
  | [] => []
  | c :: rest => upper c ++ rest

end FilterEditor.Casing
