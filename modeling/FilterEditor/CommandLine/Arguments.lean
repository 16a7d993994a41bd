import FilterEditor.Script

/-!
# Arguments

The options of the command line. An option with a value is written `--name value` or `--name=value`, a
flag `--name`; nothing may be given twice, and there are no other arguments. Asking for the help or the
version takes effect as soon as it is reached.
-/

namespace FilterEditor.CommandLine

/-- What was given on the command line. -/
structure Arguments where
  /-- The filter to load, as JSON. -/
  tree : Option Text := none
  /-- The keystroke script. -/
  keys : Option Text := none
  separator : Option Text := none
  /-- The settings file. -/
  config : Option Text := none
  plain : Bool := false
  listKeys : Bool := false
  saveConfig : Bool := false
deriving DecidableEq, Repr

/-- Why arguments are not taken. -/
inductive Interruption where
  | help
  | version
  | invalid
deriving DecidableEq, Repr

/-- The options with a value. -/
inductive ValueOption where
  | tree
  | keys
  | separator
  | config
deriving DecidableEq, Repr

namespace ValueOption

/-- The option of that name. -/
def ofName? (name : Text) : Option ValueOption :=
  [("tree".toList, tree), ("keys".toList, keys), ("separator".toList, separator),
    ("config".toList, config)].lookup name

/-- Sets an option that has no value yet; the path of a file may not be empty. -/
def set? (value : Text) (a : Arguments) : ValueOption → Option Arguments
  | tree => if a.tree.isSome then none else some { a with tree := value }
  | keys => if a.keys.isSome then none else some { a with keys := value }
  | separator => if a.separator.isSome then none else some { a with separator := value }
  | config =>
    if a.config.isSome || value.isEmpty then none else some { a with config := value }

end ValueOption

/-- The flags. -/
inductive Flag where
  | plain
  | listKeys
  | saveConfig
deriving DecidableEq, Repr

namespace Flag

/-- The flag of that name. -/
def ofName? (name : Text) : Option Flag :=
  [("plain".toList, plain), ("list-keys".toList, listKeys),
    ("save-config".toList, saveConfig)].lookup name

/-- Raises a flag that is not raised yet. -/
def raise? (a : Arguments) : Flag → Option Arguments
  | plain => if a.plain then none else some { a with plain := true }
  | listKeys => if a.listKeys then none else some { a with listKeys := true }
  | saveConfig => if a.saveConfig then none else some { a with saveConfig := true }

end Flag

/-- A single argument. -/
inductive Argument where
  | interruption (interruption : Interruption)
  /-- An option, with its value if that stands in the same argument. -/
  | option (option : ValueOption) (value : Option Text)
  | flag (flag : Flag)
deriving DecidableEq, Repr

namespace Argument

/-- What stands before and behind the first equals sign. -/
def cut : Text → Text × Option Text
  | [] => ([], none)
  | c :: rest =>
    if c = '=' then ([], some rest)
    else
      let (name, value) := cut rest
      (c :: name, value)

/-- An argument behind its two dashes. -/
def ofLong (text : Text) : Argument :=
  let (name, value) := cut text
  match ValueOption.ofName? name, value with
  | some o, value => option o value
  | none, some _ => interruption .invalid
  | none, none =>
    if name = "help".toList then interruption .help
    else if name = "version".toList then interruption .version
    else (Flag.ofName? name).elim (interruption .invalid) flag

/-- A single argument. -/
def read : Text → Argument
  | '-' :: '-' :: rest => ofLong rest
  | '-' :: 'h' :: _ => interruption .help
  | '-' :: 'V' :: _ => interruption .version
  | _ => interruption .invalid

/-- Whether an argument can be the value of the option before it: only a lone dash may start with
one. -/
def canBeValue : Text → Bool
  | '-' :: _ :: _ => false
  | _ => true

end Argument

namespace Arguments

/-- A step that may not be possible. -/
def orInvalid (a : Option Arguments) : Except Interruption Arguments :=
  match a with
  | some a => .ok a
  | none => .error .invalid

/-- Takes the arguments one after the other; two dashes may end them. -/
def readFrom (a : Arguments) : List Text → Except Interruption Arguments
  | [] => .ok a
  | arg :: rest =>
    if arg = ['-', '-'] ∧ rest = [] then .ok a
    else
      match Argument.read arg with
      | .interruption interruption => .error interruption
      | .flag flag => do readFrom (← orInvalid (flag.raise? a)) rest
      | .option option (some value) => do readFrom (← orInvalid (option.set? value a)) rest
      | .option option none =>
        match rest with
        | [] => .error .invalid
        | value :: rest =>
          if Argument.canBeValue value then do readFrom (← orInvalid (option.set? value a)) rest
          else .error .invalid

/-- What was given on a command line. -/
def read (args : List Text) : Except Interruption Arguments := readFrom {} args

end Arguments

/-- Why arguments that were taken make no sense together. -/
inductive UsageError where
  | nothingToDo
  /-- A filter cannot be loaded into an editor for free text. -/
  | plainTree
  | script (error : ScriptError)
deriving DecidableEq, Repr

/-- What is said about arguments that make no sense together. -/
def UsageError.message : UsageError → Text
  | nothingToDo => "Nothing to do: pass --tree and/or --keys"
  | plainTree => "--tree needs a filter editor, drop --plain"
  | script error => error.message

/-- What a run of the program is asked to do. -/
structure Task where
  tree : Option Text
  script : List ScriptStep
  separator : Option Text
  config : Option Text
  plain : Bool
  listKeys : Bool
  saveConfig : Bool
deriving DecidableEq, Repr

/-- The task of arguments. -/
def Arguments.task (a : Arguments) : Except UsageError Task :=
  if a.tree.isNone && a.keys.isNone && !a.listKeys && !a.saveConfig then .error .nothingToDo
  else if a.plain && a.tree.isSome then .error .plainTree
  else do
    let script ← (Script.read (a.keys.getD [])).mapError .script
    .ok ⟨a.tree, script, a.separator, a.config, a.plain, a.listKeys, a.saveConfig⟩

/-- The text that explains the options. -/
def helpText : Text :=
  "Edit filter expressions as a sequence of terms

Usage: term-filter [OPTIONS]

Options:
      --tree <JSON>      Filter tree (JSON) to load before the script runs
      --keys <SCRIPT>    Keystroke script; `<key>` names a key (`<enter>`, `<shift+home>`), `<lt>` types `<`
      --separator <SEP>  Separator joining term searches
      --config <PATH>    Config file to use instead of the one in the config directory
      --plain            Edit untyped free-text terms instead of a filter expression
      --list-keys        Print the active key bindings and exit
      --save-config      Write the effective settings to the config file (or --config) and exit
  -h, --help             Print help
  -V, --version          Print version
"

/-- The name of the program and its version. -/
def versionText : Text := "term-filter 0.1.0\n"

end FilterEditor.CommandLine
