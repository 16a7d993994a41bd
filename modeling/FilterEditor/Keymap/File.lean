import FilterEditor.Keymap.Defaults
import FilterEditor.Yaml.Node.Decode
import FilterEditor.Yaml.Node.Reader

/-!
# Keymap files

A keymap file is a YAML record whose list `bindings` holds entries with a key, a command and, if need be,
the conditions `when` it counts and the `platform` it is for. Entries for other platforms are skipped
before anything else is looked at; then the first thing that is unknown is reported.
-/

namespace FilterEditor.Keymap

/-- An entry of a keymap file. -/
structure FileEntry where
  key : Text
  command : Text
  platform : Option Text
  conditions : List Text
deriving DecidableEq, Repr

/-- Why a keymap file gives no bindings. -/
inductive FileError where
  /-- The file is not a text or not there. -/
  | unreadable
  /-- The text is no list of entries. -/
  | malformed
  | invalidKey (error : KeystrokeError)
  | unknownCommand (name : Text)
  | unknownCondition (name : Text)
deriving DecidableEq, Repr

/-- What is said about a keymap file. -/
def FileError.message : FileError → Text
  | unreadable => "cannot read keymap"
  | malformed => "malformed keymap"
  | invalidKey error => error.message
  | unknownCommand name => "unknown command: ".toList ++ name
  | unknownCondition name => "unknown condition: ".toList ++ name

/-- The platform that the program runs on. -/
def currentPlatform : Text := "linux"

namespace FileEntry

/-- The entry of a node. -/
def ofNode? (d : Yaml.Document) (n : Yaml.Node) : Option FileEntry := do
  let fields ← d.fields? n
  some
    { key := ← Yaml.requiredField? fields "key" d.text?
      command := ← Yaml.requiredField? fields "command" d.text?
      platform := ← Yaml.fieldOr? fields "platform" d.optionalText? none
      conditions := ← Yaml.fieldOr? fields "when" (d.list? d.text?) [] }

/-- Whether an entry counts on this platform. -/
def applies (e : FileEntry) : Bool := e.platform.all (· = currentPlatform)

/-- The guard of a condition. -/
def guard (name : Text) : Except FileError Guard :=
  match Guard.ofName? name with
  | some guard => .ok guard
  | none => .error (.unknownCondition name)

/-- The binding of an entry. -/
def toBinding (e : FileEntry) : Except FileError Binding := do
  let keystroke ← (Keystroke.read e.key).mapError .invalidKey
  match Action.ofName? e.command with
  | none => .error (.unknownCommand e.command)
  | some action =>
    let guards ← e.conditions.mapM guard
    .ok ⟨keystroke, action, if guards.isEmpty then none else some guards⟩

end FileEntry

/-- The entries of the text of a keymap file. -/
def readEntries? (text : Text) : Option (List FileEntry) := do
  let d ← Yaml.Document.read? text
  let fields ← d.fields? d.root
  Yaml.requiredField? fields "bindings" (d.list? (FileEntry.ofNode? d))

/-- The bindings of the text of a keymap file. -/
def read (text : Text) : Except FileError (List Binding) :=
  match readEntries? text with
  | none => .error .malformed
  | some entries => (entries.filter (·.applies)).mapM (·.toBinding)

end FilterEditor.Keymap
