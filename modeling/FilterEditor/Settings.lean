import FilterEditor.Text.Basic

/-!
# Settings

What a user may set for every editor.
-/

namespace FilterEditor

/-- The settings of an editor. -/
structure Settings where
  /-- Stands between the searches of two terms. -/
  separator : Text := [' ']
  /-- The message for an invalid slot; its first `%s` is replaced by the allowed tokens. -/
  chooseTemplate : Text := "Please type one of: %s"
  /-- Shown in the trailing input while there are no terms. -/
  placeholder : Option Text := none
  /-- Whether completers are asked for continuations. -/
  termCompletion : Bool := true
  /-- Whether a submission without terms marks the input as required. -/
  manageRequired : Bool := false
deriving DecidableEq, Repr

end FilterEditor
