import FilterEditor.Term

/-!
# Effects

What the display and its listeners have to do after a message: render, update and remove slots, write
texts, show marks, move the focus, notify listeners. An update lists its effects in order. Moving the
focus, notifying and reporting wait for the next turn; all others happen at once.

Effects may be grouped into commands. Grouping means nothing: a command stands for the list of its
effects, and `Command.ofList` builds the flattest command for a list of commands.
-/

namespace FilterEditor

/-- A place where text can be edited. -/
inductive Slot where
  /-- The trailing input, where new terms are typed. -/
  | input
  /-- The slot of the committed term at an index. -/
  | term (index : Nat)
deriving DecidableEq, Repr

namespace Slot

/-- The index of a term slot. -/
def index? : Slot → Option Nat
  | input => none
  | term index => some index

/-- Whether a slot is the trailing input. -/
def isInput (s : Slot) : Bool := s.index?.isNone

end Slot

/-- What a completer is asked: to continue the text of a slot. -/
structure Request where
  /-- The text of the slot, empty for a fresh request. -/
  label : Text
  kind : Option Kind
  /-- The index of the edited term, if the slot holds one. -/
  index : Option Nat
  /-- The search of the column that the slot belongs to. -/
  column : Option Text
  /-- The search of the operator that the slot belongs to. -/
  operator : Option Text
deriving DecidableEq, Repr

/-- What listeners are told. -/
inductive Event where
  /-- A slot may be continued. -/
  | complete (request : Request)
  /-- A term was committed: suggestions are out of date. -/
  | resetCompletion
  /-- The last term was removed: requests under way are out of date. -/
  | abortCompletion
deriving DecidableEq, Repr

namespace Event

/-- The name by which listeners ask for an event. -/
def name : Event → Text
  | complete _ => "complete"
  | resetCompletion => "reset"
  | abortCompletion => "abort"

end Event

/-- One thing to do on the display. -/
inductive Effect where
  /-- Render the term at an index: at its slot, or in a new one. -/
  | renderTerm (index : Nat) (term : Term)
  /-- Show another term in the slot at an index. -/
  | updateTerm (index : Nat) (term : Term)
  /-- Remove the slot at an index; later slots move down. -/
  | removeSlot (index : Nat)
  /-- Write text into a slot. -/
  | writeValue (slot : Slot) (value : Text)
  /-- Hand the search string to whoever keeps it. -/
  | syncValue (value : Text)
  /-- Show or hide the preview behind the trailing input. -/
  | showPreview (label : Option Text)
  | setPlaceholder (text : Text)
  | setRequired (required : Bool)
  | setSelected (index : Nat) (selected : Bool)
  /-- Set or clear the validation message of a slot. -/
  | setValidity (slot : Slot) (message : Option Text)
  /-- Point the user to the validation message of a slot. -/
  | reportValidity (slot : Slot)
  /-- Move the focus to a slot. -/
  | focus (slot : Slot)
  /-- Notify the listeners. -/
  | notify (event : Event)
  /-- Hand the search string on. -/
  | submit (value : Text)
deriving DecidableEq, Repr

namespace Effect

/-- Whether an effect waits for the next turn. -/
def isDeferred : Effect → Bool
  | focus _ | notify _ | reportValidity _ => true
  | _ => false

end Effect

/-- Effects in groups. -/
inductive Command where
  /-- Nothing to do. -/
  | none
  /-- A single effect. -/
  | one (effect : Effect)
  /-- Several commands, one after the other. -/
  | batch (commands : List Command)
deriving Repr, BEq

namespace Command

mutual

/-- The effects of a command in order. -/
def effects : Command → List Effect
  | .none => []
  | .one effect => [effect]
  | .batch commands => allEffects commands

/-- The effects of commands, one after the other. -/
def allEffects : List Command → List Effect
  | [] => []
  | command :: commands => command.effects ++ allEffects commands

end

/-- The flattest command of a list of effects: nothing, a single effect or a batch of single
effects. -/
def ofEffects : List Effect → Command
  | [] => .none
  | [effect] => .one effect
  | effects => .batch (effects.map .one)

/-- The flattest command that does what the commands do, one after the other. -/
def ofList (commands : List Command) : Command := ofEffects (allEffects commands)

/-- Whether a command is nothing to do. -/
def isNone : Command → Bool
  | .none => true
  | _ => false

/-- Whether a command is a single effect that waits for the next turn. -/
def isDeferred : Command → Bool
  | .one effect => effect.isDeferred
  | _ => false

end Command
end FilterEditor
