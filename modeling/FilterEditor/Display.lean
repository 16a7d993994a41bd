import FilterEditor.Editor.Message

/-!
# Displays

A display shows one slot per committed term and the trailing input, and keeps a record of what it was
told: events, reports and submissions. Slots are known by handles that are never given out twice; the
trailing input has the handle zero.
-/

namespace FilterEditor

/-- A rendered term. -/
structure DisplaySlot where
  handle : Nat
  term : Term
  value : Text
  validity : Option Text
  selected : Bool
deriving DecidableEq, Repr

/-- Everything that is shown, and the record of what happened. -/
structure Display where
  /-- The last handle that was given out. -/
  lastHandle : Nat := 0
  slots : List DisplaySlot := []
  /-- What was rendered before an editor came, in order. -/
  rendered : List (Nat × SlotMeta) := []
  /-- The names of the events that listeners asked for. -/
  listeners : List Text := []
  inputValue : Text := []
  inputValidity : Option Text := none
  preview : Option Text := none
  placeholder : Text := []
  required : Bool := false
  synced : Text := []
  /-- The handle of the slot in focus. -/
  focused : Option Nat := none
  events : List Event := []
  reported : List Nat := []
  submitted : List Text := []
  /-- Every call of a listener: the name it asked for and the event. -/
  heard : List (Text × Event) := []
deriving DecidableEq, Repr

namespace Display

/-- The handle of the trailing input. -/
def inputHandle : Nat := 0

/-- The slot of a handle. -/
def slot? (handle : Nat) (d : Display) : Option DisplaySlot :=
  d.slots.find? (·.handle = handle)

/-- Changes the slot of a handle. -/
def modifySlot (handle : Nat) (change : DisplaySlot → DisplaySlot) (d : Display) : Display :=
  { d with slots := d.slots.map fun s => if s.handle = handle then change s else s }

/-- Renders a term in a new slot before the slot at an index, or at the end. -/
def render (t : Term) (index : Nat) (d : Display) : Nat × Display :=
  let handle := d.lastHandle + 1
  let slot : DisplaySlot := ⟨handle, t, t.label, none, false⟩
  (handle,
    { d with
      lastHandle := handle
      slots := d.slots.take index ++ slot :: d.slots.drop index })

/-- Shows another term in a slot. -/
def updateTerm (handle : Nat) (t : Term) (d : Display) : Display :=
  d.modifySlot handle fun s => { s with term := t, value := t.label }

/-- Removes a slot; the focus goes with it. -/
def remove (handle : Nat) (d : Display) : Display :=
  { d with
    slots := d.slots.filter (·.handle ≠ handle)
    focused := if d.focused = some handle then none else d.focused }

/-- Gives the focus to a slot. -/
def focus (handle : Nat) (d : Display) : Display := { d with focused := some handle }

/-- The text shown in a slot; nothing for an unknown handle. -/
def read (handle : Nat) (d : Display) : Text :=
  if handle = inputHandle then d.inputValue else ((d.slot? handle).map (·.value)).getD []

/-- Writes text into a slot. -/
def write (handle : Nat) (value : Text) (d : Display) : Display :=
  if handle = inputHandle then { d with inputValue := value }
  else d.modifySlot handle fun s => { s with value }

/-- Sets or clears the validation message of a slot. -/
def setValidity (handle : Nat) (message : Option Text) (d : Display) : Display :=
  if handle = inputHandle then { d with inputValidity := message }
  else d.modifySlot handle fun s => { s with validity := message }

/-- Points the user to the validation message of a slot. -/
def report (handle : Nat) (d : Display) : Display :=
  { d with reported := d.reported ++ [handle] }

/-- Marks a slot as selected or not. -/
def setSelected (handle : Nat) (selected : Bool) (d : Display) : Display :=
  d.modifySlot handle fun s => { s with selected }

/-- Tells every listener that asked for it about an event. -/
def notify (event : Event) (d : Display) : Display :=
  { d with
    events := d.events ++ [event]
    heard := d.heard ++ (d.listeners.filter (· = event.name)).map (·, event) }

/-- Takes over a search string that is handed on. -/
def submit (value : Text) (d : Display) : Display :=
  { d with submitted := d.submitted ++ [value] }

/-- Adds a listener for the events of a name. -/
def subscribe (name : Text) (d : Display) : Display :=
  { d with listeners := d.listeners ++ [name] }

/-- The texts shown in the term slots, in order. -/
def labels (d : Display) : List Text := d.slots.map (·.value)

/-- The slots that were rendered before an editor came and are still there. -/
def prerendered (d : Display) : List (Nat × SlotMeta) :=
  d.rendered.filter fun (handle, _) => (d.slot? handle).isSome

/-- Renders a term behind the others before an editor comes. -/
def prerender (d : Display) (t : Term) : Display :=
  let index := d.rendered.length
  let (handle, d) := d.render t index
  { d with rendered := d.rendered ++ [(handle, ⟨index, t⟩)] }

/-- A display that already shows terms. -/
def ofTerms (terms : List Term) : Display := terms.foldl prerender {}

/-- Forgets what was recorded so far. -/
def forget (d : Display) : Display :=
  { d with events := [], reported := [], submitted := [], heard := [] }

end Display
end FilterEditor
