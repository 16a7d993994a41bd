import FilterEditor.Text.Hex
import FilterEditor.Yaml.Character

/-!
# Tags, anchors and directives

The marks that may stand before a node and before a document. A tag is a handle with a suffix; the
directives of a document say what its handles stand for.
-/

namespace FilterEditor.Yaml

/-- A tag as it is written. -/
structure Tag where
  handle : Text
  suffix : Text
deriving DecidableEq, Repr

/-- Whether a character may stand in a tag as it is. -/
def isUriChar (verbatim : Bool) (c : Char) : Bool :=
  isWord c || [';', '/', '?', ':', '@', '&', '=', '+', '$', '.', '!', '~', '*', '\'', '(', ')'].contains c ||
    (verbatim && [',', '[', ']'].contains c)

/-- How many bytes a character takes in UTF-8, by its first byte. -/
def utf8Width? (byte : Nat) : Option Nat :=
  if byte < 0x80 then some 1
  else if 0xC0 ≤ byte ∧ byte < 0xE0 then some 2
  else if 0xE0 ≤ byte ∧ byte < 0xF0 then some 3
  else if 0xF0 ≤ byte ∧ byte < 0xF8 then some 4
  else none

/-- The characters of a tag, bytes that are written as `%` and two digits as the characters of their
numbers; `following` is the number of bytes that the last one still asks for. -/
def uri? (verbatim : Bool) : Nat → Text → Option (Text × Text)
  | following, '%' :: a :: b :: rest => do
    let byte ← Hex.number? [a, b]
    let following ←
      match following with
      | 0 => (utf8Width? byte).map (· - 1)
      | more + 1 => if 0x80 ≤ byte ∧ byte < 0xC0 then some more else none
    let (text, rest) ← uri? verbatim following rest
    some (Char.ofNat byte :: text, rest)
  | 0, c :: rest =>
    if isUriChar verbatim c then (uri? verbatim 0 rest).map fun (text, rest) => (c :: text, rest)
    else if c == '%' then none
    else some ([], c :: rest)
  | 0, [] => some ([], [])
  | _ + 1, _ => none

/-- The characters of a tag, at least one. -/
def uriSome? (verbatim : Bool) (text : Text) : Option (Text × Text) := do
  let (uri, rest) ← uri? verbatim 0 text
  if uri.isEmpty then none else some (uri, rest)

/-- A handle: an exclamation mark, or a word between two of them; `closed` says whether it is one of
these. -/
structure Handle where
  text : Text
  closed : Bool
  rest : Text
deriving DecidableEq, Repr

/-- The handle at the start of a text. -/
def handle? : Text → Option Handle
  | '!' :: rest =>
    let word := rest.takeWhile isWord
    match rest.dropWhile isWord with
    | '!' :: rest => some ⟨'!' :: word ++ ['!'], true, rest⟩
    | rest => some ⟨'!' :: word, word.isEmpty, rest⟩
  | _ => none

/-- A tag between angle brackets, behind the opening one. -/
def verbatimTag? (text : Text) : Option (Tag × Text) := do
  let (uri, rest) ← uriSome? true text
  match rest with
  | '>' :: rest => some (⟨[], uri⟩, rest)
  | _ => none

/-- A tag that starts with a handle. -/
def shortTag? (text : Text) : Option (Tag × Text) := do
  let h ← handle? text
  if h.closed && 1 < h.text.length then
    let (suffix, rest) ← uriSome? false h.rest
    some (⟨h.text, suffix⟩, rest)
  else
    let (uri, rest) ← uri? false 0 h.rest
    let suffix := h.text.drop 1 ++ uri
    some (if suffix.isEmpty then ⟨[], ['!']⟩ else ⟨['!'], suffix⟩, rest)

/-- The tag at the start of a text; a gap has to follow, or a comma inside brackets. -/
def tag? (flow : Bool) (text : Text) : Option (Tag × Text) := do
  let (tag, rest) ←
    match text with
    | '!' :: '<' :: rest => verbatimTag? rest
    | text => shortTag? text
  if atGap rest || (flow && rest.head? == some ',') then some (tag, rest) else none

/-- The name of an anchor behind its mark. -/
def anchorName? (text : Text) : Option (Text × Text) :=
  let name := text.takeWhile isWord
  let rest := text.dropWhile isWord
  let closes := rest.head?.any ['?', ':', ',', ']', '\x7d', '%', '@', '\x60'].contains
  if !name.isEmpty && (atGap rest || closes) then some (name, rest) else none

/-- What the lines before a document say. -/
inductive Directive where
  /-- The version of the language. -/
  | version (major minor : Nat)
  /-- What a handle stands for. -/
  | handle (handle text : Text)
deriving DecidableEq, Repr

/-- Up to nine decimal digits at the start of a text. -/
def versionPart? (text : Text) : Option (Nat × Text) :=
  let digits := text.takeWhile Char.isDigit
  if digits.isEmpty || 9 < digits.length then none
  else
    some (digits.foldl (fun n c => 10 * n + (c.toNat - 0x30)) 0, text.dropWhile Char.isDigit)

/-- The version behind the name of its directive. -/
def version? (text : Text) : Option (Directive × Text) := do
  let (major, text) ← versionPart? (text.dropWhile isBlank)
  match text with
  | '.' :: text =>
    let (minor, text) ← versionPart? text
    some (.version major minor, text)
  | _ => none

/-- The handle and what it stands for behind the name of their directive. -/
def handleMeaning? (text : Text) : Option (Directive × Text) := do
  let h ← handle? (text.dropWhile isBlank)
  if h.closed && h.rest.head?.any isBlank then
    let (uri, rest) ← uriSome? true (h.rest.dropWhile isBlank)
    if atGap rest then some (.handle h.text uri, rest) else none
  else none

/-- The directive behind its percent sign, up to the end of its line. -/
def directive? (text : Text) : Option (Directive × Text) := do
  let name := text.takeWhile isWord
  let rest := text.dropWhile isWord
  if !atGap rest then none
  else if name = "YAML".toList then version? rest
  else if name = "TAG".toList then handleMeaning? rest
  else none

end FilterEditor.Yaml
