import FilterEditor.Keymap.Keystroke

/-!
# Keystroke scripts

A script is text to type with keys between angle brackets, as in `host<enter>`. The key `lt` stands for
the character `<` in the text around it.
-/

namespace FilterEditor

/-- A step of a script. -/
inductive ScriptStep where
  /-- A key is pressed. -/
  | key (keystroke : Keystroke)
  /-- A text is typed, character by character. -/
  | text (text : Text)
deriving DecidableEq, Repr

/-- Why a text is no script. -/
inductive ScriptError where
  /-- A key is not closed; the text is what follows its opening bracket. -/
  | unclosed (rest : Text)
  | invalidKey (error : KeystrokeError)
deriving DecidableEq, Repr

/-- What is said about a text that is no script. -/
def ScriptError.message : ScriptError → Text
  | unclosed rest => "Unclosed key in script: <".toList ++ rest
  | invalidKey error => error.message

namespace Script

/-- The name in a script of the character that opens keys. -/
def bracketName : Text := "lt"

/-- The step that types a text, unless the text is empty. -/
def typing (text : Text) : List ScriptStep := if text.isEmpty then [] else [.text text]

/-- The steps of a script, given the text typed since the last key and, inside of brackets, the
characters of the key so far. -/
def stepsFrom (typed : Text) : Option Text → Text → Except ScriptError (List ScriptStep)
  | none, [] => .ok (typing typed)
  | some name, [] => .error (.unclosed name)
  | none, c :: rest =>
    if c = '<' then stepsFrom typed (some []) rest else stepsFrom (typed ++ [c]) none rest
  | some name, c :: rest =>
    if c = '>' then
      if name = bracketName then stepsFrom (typed ++ ['<']) none rest
      else do
        let keystroke ← (Keystroke.read name).mapError .invalidKey
        let steps ← stepsFrom [] none rest
        .ok (typing typed ++ .key keystroke :: steps)
    else stepsFrom typed (some (name ++ [c])) rest

/-- The steps of a script. -/
def read (text : Text) : Except ScriptError (List ScriptStep) := stepsFrom [] none text

end Script
end FilterEditor
