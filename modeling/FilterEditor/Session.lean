import FilterEditor.Display
import FilterEditor.Editor.Update
import FilterEditor.Keymap.Basic

/-!
# Sessions

A session drives one editor and keeps one display in step with it. Effects happen on the display in
the order in which updates list them; those that move the focus, notify listeners or report a message
wait in a queue for the next turn. A turn runs what was queued before it began.
-/

namespace FilterEditor

/-- An editor on a display. -/
structure Session where
  editor : Editor
  display : Display
  keymap : Keymap
  /-- The handles of the term slots, in the order of the terms. -/
  handles : List Nat := []
  /-- The effects that wait for the next turn, in order. -/
  queue : List Effect := []
  /-- A destroyed session ignores everything. -/
  destroyed : Bool := false
deriving DecidableEq, Repr

namespace Session

/-- The handle of a slot, if it is shown. -/
def handle? (s : Session) : Slot → Option Nat
  | .input => some Display.inputHandle
  | .term index => s.handles[index]?

/-- Changes the display at a handle, if there is one. -/
def atHandle (handle : Option Nat) (change : Nat → Display → Display) (s : Session) : Session :=
  match handle with
  | none => s
  | some handle => { s with display := change handle s.display }

/-- Renders the term at an index: in its slot, or in a new one. -/
def renderTerm (index : Nat) (t : Term) (s : Session) : Session :=
  match s.handles[index]? with
  | some handle => { s with display := s.display.updateTerm handle t }
  | none =>
    let (handle, display) := s.display.render t index
    { s with display, handles := s.handles.take index ++ handle :: s.handles.drop index }

/-- Removes the slot at an index. -/
def removeSlot (index : Nat) (s : Session) : Session :=
  match s.handles[index]? with
  | none => s
  | some handle =>
    { s with handles := s.handles.eraseIdx index, display := s.display.remove handle }

/-- Carries out an effect on the display. -/
def enact (s : Session) : Effect → Session
  | .renderTerm index t => s.renderTerm index t
  | .updateTerm index t => s.atHandle s.handles[index]? (Display.updateTerm · t)
  | .removeSlot index => s.removeSlot index
  | .writeValue slot value => s.atHandle (s.handle? slot) (Display.write · value)
  | .syncValue value => { s with display := { s.display with synced := value } }
  | .showPreview label => { s with display := { s.display with preview := label } }
  | .setPlaceholder text => { s with display := { s.display with placeholder := text } }
  | .setRequired required => { s with display := { s.display with required } }
  | .setSelected index selected => s.atHandle s.handles[index]? (Display.setSelected · selected)
  | .setValidity slot message => s.atHandle (s.handle? slot) (Display.setValidity · message)
  | .reportValidity slot => s.atHandle (s.handle? slot) Display.report
  | .focus slot => s.atHandle (s.handle? slot) Display.focus
  | .notify event => { s with display := s.display.notify event }
  | .submit value => { s with display := s.display.submit value }

/-- Carries out an effect, or puts it into the queue if it has to wait. -/
def accept (s : Session) (effect : Effect) : Session :=
  if effect.isDeferred then { s with queue := s.queue ++ [effect] } else s.enact effect

/-- Carries out a command. -/
def apply (command : Command) (s : Session) : Session := command.effects.foldl accept s

/-- Whether and how a payload of slots takes over the slots that the display shows. -/
def adopted? (payload : Payload) (s : Session) : Except LoadError (Option (List Nat)) :=
  match payload with
  | .slots metas =>
    let handles := s.display.prerendered.map (·.1)
    if handles.length = metas.length then .ok (some handles)
    else .error (.indexMismatch handles.length metas.length)
  | _ => .ok none

/-- Takes over slots of the display; slots that were shown before and are not among them go. -/
def adopt (handles : Option (List Nat)) (s : Session) : Session :=
  match handles with
  | none => s
  | some handles =>
    let stale := s.handles.filter (!handles.contains ·)
    { s with handles, display := stale.foldl (fun d handle => d.remove handle) s.display }

/-- Restores the terms of a payload; a refused payload changes nothing. -/
def load (payload : Payload) (s : Session) : Except LoadError Session :=
  if s.destroyed then .ok s
  else do
    let handles ← s.adopted? payload
    let change ← s.editor.load payload
    .ok (({ s with editor := change.editor }.adopt handles).apply
      (Command.ofEffects change.effects))

/-- Sends a message to the editor and carries out what it answers. -/
def dispatch (message : Message) (s : Session) : Session :=
  if s.destroyed then s
  else
    match message with
    | .load payload =>
      match s.load payload with
      | .ok s => s
      | .error _ => s
    | message =>
      let (editor, command) := s.editor.update message
      { s with editor }.apply command

/-- Sends a keystroke to the editor and says whether it did anything. -/
def press (k : Keystroke) (s : Session) : Bool × Session :=
  if s.destroyed then (false, s)
  else
    let messages := keyMessages s.editor s.keymap k
    (!messages.isEmpty, messages.foldl (fun s message => s.dispatch message) s)

/-- Types a text into the slot in focus, character by character. -/
def typeText (text : Text) (s : Session) : Session :=
  text.foldl (fun s c => s.dispatch (.insertChar c)) s

/-- Carries out an effect whose turn has come: once a slot has the focus, the editor is told. -/
def perform (s : Session) (effect : Effect) : Session :=
  match effect with
  | .focus slot =>
    match s.handle? slot with
    | none => s
    | some _ => (s.enact effect).dispatch (.focused slot)
  | effect => s.enact effect

/-- Runs one turn and says how many effects it carried out. -/
def turn (s : Session) : Nat × Session :=
  if s.destroyed then (0, s)
  else (s.queue.length, s.queue.foldl perform { s with queue := [] })

/-- Runs turns until nothing waits, at most as many as given. -/
def turns : Nat → Session → Session
  | 0, s => s
  | n + 1, s => if s.queue.isEmpty || s.destroyed then s else turns n s.turn.2

/-- How many turns are run before a session gives up. -/
def maxTurns : Nat := 64

/-- Runs turns until nothing waits. -/
def settle (s : Session) : Session := turns maxTurns s

/-- Brings the display in line with the editor, or the editor with what the display already shows. -/
def attach (s : Session) : Session :=
  if s.editor.hasTerms then s.dispatch .refresh
  else
    let rendered := s.display.prerendered
    if rendered.isEmpty then s.dispatch .reset
    else
      match s.load (.slots (rendered.map (·.2))) with
      | .ok s => s
      | .error _ => s

/-- A session of an editor on a display. -/
def start (editor : Editor) (display : Display) (keymap : Keymap) : Session :=
  attach { editor, display, keymap }

/-- Goes on with another display; also gives the display used until now. -/
def refresh (display : Display) (s : Session) : Display × Session :=
  (s.display, attach { s with display, handles := [], queue := [] })

/-- Ends a session; what waits is dropped. -/
def destroy (s : Session) : Session := { s with destroyed := true, queue := [] }

/-- The text that the display shows in a slot. -/
def slotValue? (slot : Slot) (s : Session) : Option Text :=
  (s.handle? slot).map s.display.read

end Session
end FilterEditor
