import FilterEditor.CommandLine.Arguments
import FilterEditor.CommandLine.Storage
import FilterEditor.Session
import FilterEditor.Tree.Json

/-!
# Running the program

A run loads a filter into an editor, plays a keystroke script and prints what the editor holds then; or it
lists the key bindings, or saves the settings. It is a plan over the operations on files, so that the same
plan runs on files in memory.
-/

namespace FilterEditor.CommandLine

/-- Why a run fails. -/
inductive RunError where
  | usage (error : UsageError)
  | settingsNotLoaded (path : Text)
  | settingsNotSaved
  | invalidTree
  | treeNotLoaded
deriving DecidableEq, Repr

/-- What is said about a run that fails. -/
def RunError.message : RunError → Text
  | usage error => error.message
  | settingsNotLoaded path => "Failed to load config from ".toList ++ path
  | settingsNotSaved => "Failed to save config"
  | invalidTree => "Invalid filter tree JSON"
  | treeNotLoaded => "Failed to load filter tree"

/-- How a run ends. -/
inductive Outcome where
  /-- It prints a text. -/
  | printed (text : Text)
  | failed (error : RunError)
  /-- The arguments are not taken. -/
  | rejected
deriving DecidableEq, Repr

namespace Outcome

/-- The exit code of the program. -/
def exitCode : Outcome → Nat
  | printed _ => 0
  | failed _ => 1
  | rejected => 2

/-- What is printed. -/
def output : Outcome → Text
  | printed text => text
  | _ => []

/-- What is said about a failure. -/
def message? : Outcome → Option Text
  | failed error => some error.message
  | _ => none

end Outcome

/-- A text with spaces behind it, up to a width. -/
def padded (width : Nat) (text : Text) : Text := text ++ List.replicate (width - text.length) ' '

/-- The line of an action that has keys. -/
def bindingLine? (keymap : Keymap) (action : Action) : Option Text :=
  (keymap.display? action).map fun keys => padded 22 action.title ++ ' ' :: keys ++ ['\n']

/-- The list of all actions that have keys. -/
def bindingList (keymap : Keymap) : Text := (Action.all.filterMap (bindingLine? keymap)).flatten

/-- Plays one step of a script and lets the session come to rest. -/
def playStep (s : Session) (step : ScriptStep) : Session :=
  let played :=
    match step with
    | .key keystroke => (s.press keystroke).2
    | .text text => s.typeText text
  played.settle

/-- Plays a script. -/
def play (script : List ScriptStep) (s : Session) : Session := script.foldl playStep s

/-- A list of texts as JSON. -/
def textsToJson (texts : List Text) : Json := .array (texts.map fun text => .string (some text))

/-- What is printed about a session: its terms, their search string, the trailing input and what was
submitted. -/
def report (s : Session) : Json :=
  .object <|
    [(some "terms".toList, .array (s.editor.terms.terms.map Term.toJson)),
      (some "serialized".toList, .string (some s.editor.serialized)),
      (some "input".toList, .string (some s.editor.input.text))] ++
    if s.display.submitted.isEmpty then []
    else [(some "submitted".toList, textsToJson s.display.submitted)]

/-- Loads a filter written as JSON, if one is given. -/
def loadTree (tree : Option Text) (s : Session) : Except RunError Session :=
  match tree with
  | none => .ok s
  | some text =>
    match Tree.read? text with
    | none => .error .invalidTree
    | some tree => (s.load (.tree tree)).mapError fun _ => .treeNotLoaded

/-- What the editor holds after a task. -/
def edit (task : Task) (settings : Settings) (keymap : Keymap) : Except RunError Text := do
  let grammar : Grammar := if task.plain then .plain else .filter
  let s ← loadTree task.tree (Session.start (Editor.new settings grammar) {} keymap)
  .ok ((report (play task.script s)).pretty ++ ['\n'])

variable {m : Type → Type} [Monad m]

/-- The settings that a task works with: those of its file, else those in the usual place. A file that
is going to be written may be missing. -/
def taskSettings (files : Files m) (e : Environment) (task : Task) : m (Except RunError Settings) := do
  let settings ←
    match task.config with
    | none => pure (.ok (← files.usualSettings e))
    | some path =>
      let found ← files.entry path
      if task.saveConfig && found == .missing then pure (.ok {})
      else pure (found.settings.mapError fun _ => .settingsNotLoaded path)
  return settings.map fun settings =>
    { settings with separator := task.separator.getD settings.separator }

/-- Saves settings where a task says and tells the path. -/
def save (files : Files m) (e : Environment) (task : Task) (settings : Settings) : m Outcome := do
  let saved ←
    match task.config with
    | some path => pure ((← files.saveSettings path settings).map fun _ => path)
    | none => files.saveUsualSettings e settings
  match saved with
  | .ok path => return .printed (path ++ ['\n'])
  | .error _ => return .failed .settingsNotSaved

/-- Does what a task asks for. -/
def perform (files : Files m) (e : Environment) (task : Task) : m Outcome := do
  match ← taskSettings files e task with
  | .error error => return .failed error
  | .ok settings =>
    if task.saveConfig then save files e task settings
    else
      let keymap := Keymap.ofBindings (← files.usualBindings e)
      if task.listKeys then return .printed (bindingList keymap)
      else
        match edit task settings keymap with
        | .ok text => return .printed text
        | .error error => return .failed error

/-- Runs the program; the directory for logs is made first, if that is possible. -/
def run (files : Files m) (e : Environment) (args : List Text) : m Outcome := do
  if let some path := e.logDirectory? then
    let _ ← files.makeDirectories path
  match Arguments.read args with
  | .error .help => return .printed helpText
  | .error .version => return .printed versionText
  | .error .invalid => return .rejected
  | .ok a =>
    match a.task with
    | .error error => return .failed (.usage error)
    | .ok task => perform files e task

end FilterEditor.CommandLine
