import FilterEditor.Text.Casing

/-!
# Keystrokes

A keystroke is a key with the modifiers held down. It is written as the names of its modifiers and of
its key with `+` between them; the reader also accepts other names, any order of the modifiers and any
case.
-/

namespace FilterEditor

/-- The keys that have names. -/
inductive NamedKey where
  | enter
  | escape
  | tab
  | backspace
  | delete
  | space
  | up
  | down
  | left
  | right
  | home
  | endKey
deriving DecidableEq, Repr

namespace NamedKey

/-- Every named key. -/
def all : List NamedKey :=
  [enter, escape, tab, backspace, delete, space, up, down, left, right, home, endKey]

/-- The name of a key. -/
def name : NamedKey → Text
  | enter => "enter"
  | escape => "escape"
  | tab => "tab"
  | backspace => "backspace"
  | delete => "delete"
  | space => "space"
  | up => "up"
  | down => "down"
  | left => "left"
  | right => "right"
  | home => "home"
  | endKey => "end"

/-- The key of that name. -/
def ofName? (text : Text) : Option NamedKey := all.find? (·.name = text)

/-- Other names of keys. -/
def aliases : List (Text × NamedKey) :=
  [("return", enter), ("esc", escape), ("back", backspace), ("del", delete), ("arrowup", up),
    ("arrowdown", down), ("arrowleft", left), ("arrowright", right)]

end NamedKey

/-- A key: a character or a named key. -/
inductive Key where
  | char (c : Char)
  | named (key : NamedKey)
deriving DecidableEq, Repr

namespace Key

/-- A key in a written keystroke. -/
def print : Key → Text
  | char c => [c]
  | named key => key.name

/-- A key in a hint: a character in upper case, a name with a capital letter. -/
def display : Key → Text
  | char c => Casing.upper c
  | named key => Casing.upperFirst key.name

/-- The name of a named key. -/
def name? : Key → Option Text
  | char _ => none
  | named key => some key.name

/-- The key that a name in lower case stands for. -/
def ofName? : Text → Option Key
  | [c] => some (char c)
  | text => ((NamedKey.ofName? text).or (NamedKey.aliases.lookup text)).map named

end Key

/-- The modifiers held down. -/
structure Modifiers where
  ctrl : Bool := false
  alt : Bool := false
  shift : Bool := false
  super : Bool := false
deriving DecidableEq, Repr

namespace Modifiers

/-- The names of the modifiers that are held down. -/
def names (m : Modifiers) : List Text :=
  (if m.ctrl then ["ctrl".toList] else []) ++ (if m.alt then ["alt".toList] else []) ++
    (if m.shift then ["shift".toList] else []) ++ (if m.super then ["meta".toList] else [])

/-- Whether no modifier is held down. -/
def isEmpty (m : Modifiers) : Bool := m == {}

/-- The modifier that commands are given with: the control key. -/
def hasCommand (m : Modifiers) : Bool := m.ctrl

/-- Holds down the modifier of that name. -/
def hold? (name : Text) (m : Modifiers) : Option Modifiers :=
  if name = "cmd".toList ∨ name = "ctrl".toList ∨ name = "control".toList then
    some { m with ctrl := true }
  else if name = "shift".toList then some { m with shift := true }
  else if name = "alt".toList ∨ name = "option".toList ∨ name = "opt".toList then
    some { m with alt := true }
  else if name = "meta".toList ∨ name = "super".toList ∨ name = "win".toList then
    some { m with super := true }
  else none

end Modifiers

/-- A key with the modifiers held down. -/
structure Keystroke where
  key : Key
  modifiers : Modifiers := {}
deriving DecidableEq, Repr

/-- Why a text is no keystroke. -/
inductive KeystrokeError where
  /-- The text ends in a `+` that no key follows. -/
  | dangling (text : Text)
  /-- A name before a `+` is no modifier. -/
  | notModifier (name text : Text)
  /-- The last name is no key. -/
  | unknownKey (text : Text)
deriving DecidableEq, Repr

namespace KeystrokeError

/-- What is said about a text that is no keystroke. -/
def message (error : KeystrokeError) : Text :=
  "invalid key: ".toList ++
    match error with
    | dangling text => text
    | notModifier name text => name ++ " is not a modifier in ".toList ++ text
    | unknownKey text => "Unknown key in ".toList ++ text

end KeystrokeError

namespace Keystroke

/-- The keystroke that types a character. -/
def typing (c : Char) : Keystroke := ⟨.char c.toLower, {}⟩

/-- A keystroke as it is written. -/
def print (k : Keystroke) : Text := k.modifiers.names.flatMap (· ++ ['+']) ++ k.key.print

/-- A keystroke in a hint. -/
def display (k : Keystroke) : Text :=
  Text.join ['+'] (k.modifiers.names.map Casing.upperFirst ++ [k.key.display])

/-- The character that a keystroke types into a slot, if it types one. -/
def typed? (k : Keystroke) : Option Char :=
  if k.modifiers.ctrl || k.modifiers.super then none
  else
    match k.key with
    | .char c => if k.modifiers.shift then (Casing.upper c).head? else some c
    | .named .space => some ' '
    | .named _ => none

/-- What stands before and behind the last occurrence of a mark. -/
def splitLast? (mark : Char) : Text → Option (Text × Text)
  | [] => none
  | c :: rest =>
    match splitLast? mark rest with
    | some (before, after) => some (c :: before, after)
    | none => if c = mark then some ([], rest) else none

/-- The modifiers and the key of a written keystroke; where the last name is missing, the key is the
`+` itself. -/
def splitKey? (text : Text) : Option (Text × Text) :=
  match splitLast? '+' text with
  | none => some ([], text)
  | some ([], []) => some ([], ['+'])
  | some (before, []) => if before.getLast? = some '+' then some (before.dropLast, ['+']) else none
  | some (before, key) => some (before, key)

/-- The modifiers of those names. -/
def readModifiers (text : Text) : List Text → Except KeystrokeError Modifiers
  | [] => .ok {}
  | name :: names => do
    match Modifiers.hold? name {} with
    | none => .error (.notModifier name text)
    | some _ =>
      let m ← readModifiers text names
      .ok ((m.hold? name).getD m)

/-- The keystroke that a text stands for. -/
def read (text : Text) : Except KeystrokeError Keystroke :=
  match splitKey? (Casing.lowerText text) with
  | none => .error (.dangling text)
  | some (modifiers, key) => do
    let names := (List.splitOn '+' modifiers).filter (!·.isEmpty)
    let modifiers ← readModifiers text names
    match Key.ofName? key with
    | none => .error (.unknownKey text)
    | some key => .ok ⟨key, modifiers⟩

end Keystroke
end FilterEditor
