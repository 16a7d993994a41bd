import FilterEditor.Json.Value

/-!
# Writing JSON

Two layouts of a value: on one line without white space, and over lines with two spaces of
indentation per level. Strings escape quotes, backslashes and control characters and nothing else.
-/

namespace FilterEditor.Json

/-- A character inside a string literal. -/
def escapeChar (c : Char) : Text :=
  if c = '"' ∨ c = '\\' then ['\\', c]
  else if c = '\n' then ['\\', 'n']
  else if c = '\r' then ['\\', 'r']
  else if c = '\t' then ['\\', 't']
  else if c = '\x08' then ['\\', 'b']
  else if c = '\x0c' then ['\\', 'f']
  else if c.toNat < 0x20 then
    ['\\', 'u', '0', '0', Nat.digitChar (c.toNat / 16), Nat.digitChar (c.toNat % 16)]
  else [c]

/-- A string literal. -/
def quote (text : Text) : Text := '"' :: text.flatMap escapeChar ++ ['"']

/-- A number as it was written. -/
def Number.render (n : Number) : Text :=
  (if n.negative then ['-'] else []) ++ n.whole ++
    (if n.fraction.isEmpty then [] else '.' :: n.fraction) ++
    match n.exponent with
    | none => []
    | some (true, digits) => 'e' :: '-' :: digits
    | some (false, digits) => 'e' :: digits

/-- A value without parts. -/
def renderAtom : Json → Text
  | null => "null"
  | bool true => "true"
  | bool false => "false"
  | number n => n.render
  | string s => quote (s.getD [])
  | array _ => ['[', ']']
  | object _ => ['\x7b', '\x7d']

mutual

/-- A value on one line. -/
def render : Json → Text
  | array items => '[' :: Text.join [','] (renderItems items) ++ [']']
  | object fields => '\x7b' :: Text.join [','] (renderFields fields) ++ ['\x7d']
  | atom => renderAtom atom

/-- The values of an array. -/
def renderItems : List Json → List Text
  | [] => []
  | item :: items => render item :: renderItems items

/-- The fields of an object. -/
def renderFields : List (Str × Json) → List Text
  | [] => []
  | (name, value) :: fields =>
    (quote (name.getD []) ++ ':' :: render value) :: renderFields fields

end

/-- The start of a line at a level. -/
def newLine (level : Nat) : Text := '\n' :: List.replicate (2 * level) ' '

/-- Parts on lines of their own between brackets. -/
def block (level : Nat) (opening closing : Char) (parts : List Text) : Text :=
  if parts.isEmpty then [opening, closing]
  else
    opening :: newLine (level + 1) ++ Text.join (',' :: newLine (level + 1)) parts ++
      newLine level ++ [closing]

mutual

/-- A value over lines, at a level of indentation. -/
def prettyAt (level : Nat) : Json → Text
  | array items => block level '[' ']' (prettyItems (level + 1) items)
  | object fields => block level '\x7b' '\x7d' (prettyFields (level + 1) fields)
  | atom => renderAtom atom

/-- The values of an array, each over lines. -/
def prettyItems (level : Nat) : List Json → List Text
  | [] => []
  | item :: items => prettyAt level item :: prettyItems level items

/-- The fields of an object, each over lines. -/
def prettyFields (level : Nat) : List (Str × Json) → List Text
  | [] => []
  | (name, value) :: fields =>
    (quote (name.getD []) ++ ':' :: ' ' :: prettyAt level value) :: prettyFields level fields

end

/-- A value over lines. -/
def pretty (value : Json) : Text := prettyAt 0 value

end FilterEditor.Json
