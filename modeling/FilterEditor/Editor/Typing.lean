import FilterEditor.Editor.Completion
import FilterEditor.Editor.Navigation
import FilterEditor.Editor.Selection

/-!
# Typing

What is typed into the trailing input runs past the grammar before it lands: a character that
completes an operator is committed at once, one that begins a longer operator commits the pending
text first, and a text that can no longer be the previewed operator commits the preview. Term slots
edit their draft and are validated after every edit.
-/

namespace FilterEditor.Editor

/-- Follows an edit of the trailing input. -/
def afterInput (e : Editor) : Change :=
  let value := e.input.trimmed
  let finish (c : Change) : Change :=
    ((c.andShow fun e => e.requestEffects .input e.input.text).andThen clearSelected).andShow
      placeholderEffects
  match e.preview with
  | none => finish e.unchanged
  | some preview =>
    if value.isEmpty || !e.hasTerms then finish e.unchanged
    else if (e.grammar.continuations value e.expected (e.slotContext .input)).isPartial then
      e.unchanged
    else
      finish ((if value ≠ preview.label then e.add preview else e.exchange).andShow
        placeholderEffects)

/-- Follows an edit of a term slot: sets its mark, and asks for completions while it is valid. -/
def afterTermEdit (slot : Slot) (e : Editor) : Change :=
  let text := e.slotText slot
  match e.check slot text with
  | .invalid message =>
    ⟨{ e with validity := some message },
      [.setValidity slot (some message), .reportValidity slot]⟩
  | .valid =>
    let e := { e with validity := none }
    ⟨e, .setValidity slot none :: e.requestEffects slot text⟩

/-- Follows an edit of a slot. -/
def afterEdit (slot : Slot) (e : Editor) : Change :=
  match slot with
  | .input => e.afterInput
  | .term _ => e.afterTermEdit slot

/-- Edits the line of a slot and shows what follows; nothing happens if the line stays as it is. -/
def editSlot (slot : Slot) (change : Line → Option Line) (e : Editor) : Change :=
  match e.edit? slot change with
  | none => e.unchanged
  | some e => Change.andThen ⟨e, e.writeEffects slot⟩ (afterEdit slot)

/-- Inserts a character as it is. -/
def insertPlain (slot : Slot) (c : Char) (e : Editor) : Change :=
  e.editSlot slot (Line.insertChar? c)

/-- Commits the preview on an empty trailing input; else types a space. -/
def confirmPreview (slot : Slot) (e : Editor) : Change :=
  if slot.isInput && e.input.isEmpty then
    let added :=
      match e.preview with
      | some preview => e.add preview
      | none => e.unchanged
    added.andShow (requestEffects .input [])
  else e.insertPlain slot ' '

/-- The text that decides what a typed character means: after a column, the pending text belongs to
the operator. -/
def typedText (c : Char) (e : Editor) : Text :=
  if e.expected = some .operator then e.input.trimmed ++ [c] else [c]

/-- Types a character into a slot. -/
def insertChar (slot : Slot) (c : Char) (e : Editor) : Change :=
  if c = ' ' then e.confirmPreview slot
  else if !slot.isInput then e.insertPlain slot c
  else
    let typed := e.typedText c
    let options := e.grammar.continuations typed e.expected (e.slotContext .input)
    if options.isPartial then
      ((e.exchange).andShow placeholderEffects).andThen (insertPlain slot c)
    else
      match options.exactMatch? typed with
      | none => e.insertPlain slot c
      | some token =>
        let before :=
          if e.expected ≠ token.kind then e.exchange
          else
            let e := { e with input := {} }
            ⟨e, e.writeEffects .input⟩
        (before.andThen (add token)).andShow placeholderEffects

/-- Types the characters of a text, each into the slot that is in focus then. -/
def insertText (text : Text) (e : Editor) : Change :=
  text.foldl (fun change c => change.andThen fun e => e.insertChar e.focus c) e.unchanged

/-- Deletes the character before the cursor. On the trailing input the selection goes first, and an
empty input takes the last term with it. -/
def deleteBackward (slot : Slot) (e : Editor) : Change :=
  if slot.isInput then
    ((e.clearSelected).andThen fun e =>
      if e.input.isEmpty then e.pop else e.editSlot slot Line.deleteBackward?).andShow
      placeholderEffects
  else e.editSlot slot Line.deleteBackward?

/-- Deletes the character behind the cursor. On the trailing input the selection goes as well. -/
def deleteForward (slot : Slot) (e : Editor) : Change :=
  let deleted := e.editSlot slot Line.deleteForward?
  if slot.isInput then (deleted.andThen clearSelected).andShow placeholderEffects else deleted

/-- Steps the preview through its group, downwards and to the right or back. -/
def cyclePreview (direction : Direction) (e : Editor) : Change :=
  let forward := direction == .down || direction == .right
  match e.preview.bind fun current => e.grammar.cyclePreview current forward with
  | none => e.unchanged
  | some next => ⟨{ e with preview := some next }, [.showPreview (some next.label)]⟩

/-- Edits the line of a slot without showing anything. -/
def moveInSlot (slot : Slot) (change : Line → Option Line) (e : Editor) : Editor :=
  (e.edit? slot change).getD e

/-- Moves the cursor sideways, or the focus where the line ends; moving in the trailing input ends the
selection. -/
def moveSideways (slot : Slot) (atEdge : Line → Bool) (move : Line → Option Line)
    (target : Editor → Option Slot) (e : Editor) : Change :=
  let moved : Change :=
    if (e.line? slot).any atEdge && e.hasTerms then ⟨e, focusEffects (target e)⟩
    else (e.moveInSlot slot move).unchanged
  if slot.isInput then moved.andThen deselect else moved

/-- Moves the cursor, or steps through the previews. -/
def moveCursor (slot : Slot) (direction : Direction) (e : Editor) : Change :=
  match direction with
  | .up | .down => e.cyclePreview direction
  | .left => e.moveSideways slot Line.atStart Line.moveLeft? previousSlot?
  | .right => e.moveSideways slot Line.atEnd Line.moveRight? nextSlot?

/-- Moves the cursor to the start of the line. -/
def moveStart (slot : Slot) (e : Editor) : Change :=
  (e.moveInSlot slot fun line => some line.moveStart).unchanged

/-- Moves the cursor to the end of the line; in the trailing input this ends the selection. -/
def moveEnd (slot : Slot) (e : Editor) : Change :=
  let moved := e.moveInSlot slot fun line => some line.moveEnd
  if slot.isInput then moved.deselect else moved.unchanged

/-- Commits the preview from the trailing input. -/
def commitPreview (slot : Slot) (e : Editor) : Change :=
  match slot, e.preview with
  | .input, some preview => (e.add preview).andShow placeholderEffects
  | _, _ => e.unchanged

end FilterEditor.Editor
