import FilterEditor.Editor.Effect
import FilterEditor.Suggestion
import FilterEditor.Tree.Basic

/-!
# Messages

Everything that can happen to an editor: keys and pasted text, edits of the term sequence, moves of
the focus, suggestions of a completer, and loading, refreshing, resetting and submitting.
-/

namespace FilterEditor

/-- A direction of cursor movement and of stepping through previews. -/
inductive Direction where
  | up
  | down
  | left
  | right
deriving DecidableEq, Repr

/-- What a display says about a slot that it rendered itself. -/
structure SlotMeta where
  index : Nat
  term : Term
deriving DecidableEq, Repr

/-- Where terms are restored from. -/
inductive Payload where
  /-- Slots that the display already shows. -/
  | slots (metas : List SlotMeta)
  /-- A JSON text that holds an array of terms. -/
  | json (text : Text)
  /-- A filter. -/
  | tree (tree : Tree)
  /-- The terms themselves. -/
  | terms (terms : List Term)
deriving Repr, BEq

/-- Something that happens to an editor. -/
inductive Message where
  /-- A character is typed. -/
  | insertChar (c : Char)
  /-- A text is pasted. -/
  | insertText (text : Text)
  | deleteBackward
  | deleteForward
  /-- The cursor moves, or leaves the slot at its end. -/
  | moveCursor (direction : Direction)
  | moveStart
  | moveEnd
  /-- The preview is committed on an empty input, else a space is typed. -/
  | confirmPreview
  /-- The preview is committed. -/
  | commitPreview
  /-- The preview steps through its group. -/
  | cyclePreview (direction : Direction)
  /-- The trailing input is committed. -/
  | exchange
  | removeLast
  | remove (index : Nat)
  | clearSelected
  /-- The edited text of a term slot is saved. -/
  | save (index : Nat)
  | selectAll
  | deselect
  | toggle (index : Nat)
  | forward
  | backward
  /-- The display moved the focus to a slot. -/
  | focused (slot : Slot)
  /-- A suggestion is highlighted: it is written into a slot. -/
  | suggestion (slot : Slot) (data : Suggestion)
  /-- A suggestion is chosen: the trailing input commits it. -/
  | completion (slot : Slot) (data : Suggestion)
  | load (payload : Payload)
  /-- All terms are rendered again. -/
  | refresh
  | reset
  | submit
deriving Repr, BEq

end FilterEditor
