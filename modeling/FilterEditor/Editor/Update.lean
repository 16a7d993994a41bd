import FilterEditor.Editor.Restoring
import FilterEditor.Editor.Typing

/-!
# Updating an editor

All changes of an editor come from messages. A message is answered by the changed editor and a
command for the display, which is nothing where there is nothing to do.
-/

namespace FilterEditor.Editor

/-- Loads a payload; a refused one changes nothing. -/
def loadOrIgnore (payload : Payload) (e : Editor) : Change :=
  match e.load payload with
  | .ok change => change
  | .error _ => e.unchanged

/-- What a message does to an editor. -/
def respond (e : Editor) : Message → Change
  | .insertChar c => e.insertChar e.focus c
  | .insertText text => e.insertText text
  | .deleteBackward => e.deleteBackward e.focus
  | .deleteForward => e.deleteForward e.focus
  | .moveCursor direction => e.moveCursor e.focus direction
  | .moveStart => e.moveStart e.focus
  | .moveEnd => e.moveEnd e.focus
  | .confirmPreview => e.confirmPreview e.focus
  | .commitPreview => e.commitPreview e.focus
  | .cyclePreview direction => e.cyclePreview direction
  | .exchange => e.exchange.andShow placeholderEffects
  | .removeLast => e.pop.andShow placeholderEffects
  | .remove index => (e.remove index).andShow placeholderEffects
  | .clearSelected => e.clearSelected.andShow placeholderEffects
  | .save index => (e.save index).2
  | .selectAll => e.selectAll
  | .deselect => e.deselect
  | .toggle index => e.toggle index
  | .forward => ⟨e, focusEffects e.nextSlot?⟩
  | .backward => ⟨e, focusEffects e.previousSlot?⟩
  | .focused slot => e.focused slot
  | .suggestion slot data => e.suggest slot data
  | .completion slot data => e.complete slot data
  | .load payload => e.loadOrIgnore payload
  | .refresh => e.refresh
  | .reset => e.reset
  | .submit => e.submit

/-- The editor after a message, with the command for the display. -/
def update (e : Editor) (message : Message) : Editor × Command :=
  let change := e.respond message
  (change.editor, Command.ofEffects change.effects)

/-- The editor after messages, one after the other. -/
def run (e : Editor) (messages : List Message) : Editor :=
  messages.foldl (fun e message => (e.update message).1) e

end FilterEditor.Editor
