import FilterEditor.CommandLine.Locations
import FilterEditor.Keymap.File
import FilterEditor.Keymap.Merge
import FilterEditor.Settings.Yaml

/-!
# Stored settings and keymaps

Reading and writing the program's files. A file that is asked for has to be there and in order; the files
in their usual places count only if they are.
-/

namespace FilterEditor.CommandLine

/-- Why settings could not be read or written. -/
inductive SettingsError where
  | inaccessible
  | malformed
deriving DecidableEq, Repr

/-- What is said about settings that could not be read or written. -/
def SettingsError.message : SettingsError → Text
  | inaccessible => "cannot access settings"
  | malformed => "malformed settings"

/-- The settings of what is found under a path. -/
def Entry.settings : Entry → Except SettingsError Settings
  | .file (some text) =>
    match Settings.read? text with
    | some settings => .ok settings
    | none => .error .malformed
  | _ => .error .inaccessible

/-- The bindings of what is found under a path. -/
def Entry.bindings : Entry → Except Keymap.FileError (List Binding)
  | .file (some text) => Keymap.read text
  | _ => .error .unreadable

variable {m : Type → Type} [Monad m]

namespace Files

/-- What is found under a path that may not be known. -/
def entry? (files : Files m) : Option Text → m Entry
  | none => pure .missing
  | some path => files.entry path

/-- The settings of a file. -/
def loadSettings (files : Files m) (path : Text) : m (Except SettingsError Settings) := do
  return (← files.entry path).settings

/-- The settings in their usual place, or the default ones. -/
def usualSettings (files : Files m) (e : Environment) : m Settings := do
  return ((← files.entry? e.settingsFile?).settings.toOption).getD {}

/-- Writes settings into a file; directories that are missing are made. -/
def saveSettings (files : Files m) (path : Text) (settings : Settings) :
    m (Except SettingsError Unit) := do
  if ← files.makeDirectories (parentPath path) then
    if ← files.write path settings.write then return .ok ()
  return .error .inaccessible

/-- Writes settings into their usual place and says where that is. -/
def saveUsualSettings (files : Files m) (e : Environment) (settings : Settings) :
    m (Except SettingsError Text) := do
  match e.settingsFile? with
  | none => return .error .inaccessible
  | some path => return (← files.saveSettings path settings).map fun _ => path

/-- The bindings of a keymap file. -/
def loadBindings (files : Files m) (path : Text) : m (Except Keymap.FileError (List Binding)) := do
  return (← files.entry path).bindings

/-- The name of keymap files. -/
def keymapName : Text := "keymap.yaml"

/-- The bindings in effect: the default ones under those of the working directory under those of the
program's directory. -/
def usualBindings (files : Files m) (e : Environment) : m (List Binding) := do
  let here ← files.loadBindings keymapName
  let usual := (← files.entry? e.keymapFile?).bindings
  return [here, usual].foldl
    (fun bindings layer => (layer.map (Keymap.merge bindings)).toOption.getD bindings)
    Keymap.defaults

end Files
end FilterEditor.CommandLine
