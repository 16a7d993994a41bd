import FilterEditor.Editor.Message

/-!
# Actions

What a key can be bound to. An action stands for the messages it sends to the editor.
-/

namespace FilterEditor

/-- What a key can be bound to. -/
inductive Action where
  | moveCursorLeft
  | moveCursorRight
  | moveCursorStart
  | moveCursorEnd
  | focusForward
  | focusBackward
  | deleteBackward
  | deleteForward
  | confirmPreview
  | commitPreview
  | previousPreview
  | nextPreview
  | exchangeTerm
  | saveTerm
  | selectAllTerms
  | deselectTerms
  | clearSelectedTerms
  | removeLastTerm
  | submit
  | reset
  /-- Takes the bindings of a key away. -/
  | unbound
deriving DecidableEq, Repr

namespace Action

/-- Every action, in the order of listings. -/
def all : List Action :=
  [moveCursorLeft, moveCursorRight, moveCursorStart, moveCursorEnd, focusForward, focusBackward,
    deleteBackward, deleteForward, confirmPreview, commitPreview, previousPreview, nextPreview,
    exchangeTerm, saveTerm, selectAllTerms, deselectTerms, clearSelectedTerms, removeLastTerm,
    submit, reset, unbound]

/-- The name of an action in keymap files. -/
def name : Action → Text
  | moveCursorLeft => "MoveCursorLeft"
  | moveCursorRight => "MoveCursorRight"
  | moveCursorStart => "MoveCursorStart"
  | moveCursorEnd => "MoveCursorEnd"
  | focusForward => "FocusForward"
  | focusBackward => "FocusBackward"
  | deleteBackward => "DeleteBackward"
  | deleteForward => "DeleteForward"
  | confirmPreview => "ConfirmPreview"
  | commitPreview => "CommitPreview"
  | previousPreview => "PreviousPreview"
  | nextPreview => "NextPreview"
  | exchangeTerm => "ExchangeTerm"
  | saveTerm => "SaveTerm"
  | selectAllTerms => "SelectAllTerms"
  | deselectTerms => "DeselectTerms"
  | clearSelectedTerms => "ClearSelectedTerms"
  | removeLastTerm => "RemoveLastTerm"
  | submit => "Submit"
  | reset => "Reset"
  | unbound => "Unbound"

/-- The action of that name. -/
def ofName? (text : Text) : Option Action := all.find? (·.name = text)

/-- What a listing calls an action. -/
def title : Action → Text
  | moveCursorLeft => "Move Cursor Left"
  | moveCursorRight => "Move Cursor Right"
  | moveCursorStart => "Move to Start"
  | moveCursorEnd => "Move to End"
  | focusForward => "Focus Next Slot"
  | focusBackward => "Focus Previous Slot"
  | deleteBackward => "Delete Backward"
  | deleteForward => "Delete Forward"
  | confirmPreview => "Confirm Preview"
  | commitPreview => "Commit Preview"
  | previousPreview => "Previous Preview"
  | nextPreview => "Next Preview"
  | exchangeTerm => "Commit Input"
  | saveTerm => "Save Term"
  | selectAllTerms => "Select All Terms"
  | deselectTerms => "Deselect Terms"
  | clearSelectedTerms => "Remove Selected Terms"
  | removeLastTerm => "Remove Last Term"
  | submit => "Submit"
  | reset => "Reset"
  | unbound => "Unbound"

/-- The messages of an action, given the slot in focus. -/
def messages (focus : Slot) : Action → List Message
  | moveCursorLeft => [.moveCursor .left]
  | moveCursorRight => [.moveCursor .right]
  | moveCursorStart => [.moveStart]
  | moveCursorEnd => [.moveEnd]
  | focusForward => [.forward]
  | focusBackward => [.backward]
  | deleteBackward => [.deleteBackward]
  | deleteForward => [.deleteForward]
  | confirmPreview => [.confirmPreview]
  | commitPreview => [.commitPreview]
  | previousPreview => [.cyclePreview .up]
  | nextPreview => [.cyclePreview .down]
  | exchangeTerm => [.exchange]
  | saveTerm => focus.index?.toList.map .save
  | selectAllTerms => [.selectAll]
  | deselectTerms => [.deselect]
  | clearSelectedTerms => [.clearSelected]
  | removeLastTerm => [.removeLast]
  | submit => [.submit]
  | reset => [.reset]
  | unbound => []

end Action
end FilterEditor
