import FilterEditor.Keymap.Basic

/-!
# Default bindings

The bindings that every keymap starts from.
-/

namespace FilterEditor.Keymap

/-- A binding of a named key. -/
def bindKey (key : NamedKey) (action : Action) (guards : Option (List Guard) := none) : Binding :=
  { keystroke := { key := .named key }, action, guards }

/-- The bindings that every keymap starts from. -/
def defaults : List Binding :=
  [ bindKey .space .confirmPreview,
    bindKey .tab .commitPreview (some [.trailingInput, .hasPreview]),
    bindKey .up .previousPreview,
    bindKey .down .nextPreview,
    bindKey .left .moveCursorLeft,
    bindKey .right .moveCursorRight,
    bindKey .home .moveCursorStart,
    bindKey .endKey .moveCursorEnd,
    { keystroke := { key := .named .home, modifiers := { shift := true } }, action := .selectAllTerms },
    { keystroke := { key := .char 'a', modifiers := { ctrl := true } }, action := .selectAllTerms },
    bindKey .escape .deselectTerms,
    bindKey .backspace .deleteBackward,
    bindKey .delete .deleteForward,
    bindKey .enter .saveTerm (some [.termSlot]),
    bindKey .enter .submit (some [.trailingInput]) ]

end FilterEditor.Keymap
