import FilterEditor.Keymap.Action
import FilterEditor.Keymap.Guard
import FilterEditor.Keymap.Keystroke

/-!
# Keymaps

A keymap holds bindings of keystrokes to actions, in order, and finds those of a keystroke through an
index. A keystroke may have several bindings with different guards: the first guarded one whose guards
all hold wins, then the first one without guards.
-/

namespace FilterEditor

/-- A keystroke bound to an action. -/
structure Binding where
  keystroke : Keystroke
  action : Action
  /-- All have to hold; a binding without guards always counts. -/
  guards : Option (List Guard) := none
deriving DecidableEq, Repr

namespace Binding

/-- Whether a binding is guarded and its guards all hold. -/
def firesIn (context : KeyContext) (b : Binding) : Bool :=
  b.guards.any fun guards => guards.all (·.holds context)

end Binding

/-- For each keystroke the positions of its bindings, ascending. -/
abbrev KeyIndex := List (Keystroke × List Nat)

namespace KeyIndex

/-- The positions of the bindings of a keystroke. -/
def positions (k : Keystroke) (index : KeyIndex) : List Nat := (index.lookup k).getD []

/-- The index with one more position for a keystroke. -/
def insert (k : Keystroke) (position : Nat) : KeyIndex → KeyIndex
  | [] => [(k, [position])]
  | (key, positions) :: rest =>
    if key = k then (key, positions ++ [position]) :: rest
    else (key, positions) :: insert k position rest

end KeyIndex

/-- Bindings and their index. -/
structure Keymap where
  bindings : List Binding := []
  index : KeyIndex := []
deriving DecidableEq, Repr

namespace Keymap

/-- Adds a binding behind the others. -/
def add (b : Binding) (m : Keymap) : Keymap :=
  ⟨m.bindings ++ [b], m.index.insert b.keystroke m.bindings.length⟩

/-- The keymap of bindings in order. -/
def ofBindings (bindings : List Binding) : Keymap := bindings.foldl (fun m b => m.add b) {}

/-- The bindings of a keystroke in order. -/
def candidates (k : Keystroke) (m : Keymap) : List Binding :=
  (m.index.positions k).filterMap (m.bindings[·]?)

/-- The action of the first binding without guards. -/
def unguarded? (bindings : List Binding) : Option Action :=
  (bindings.find? (·.guards.isNone)).map (·.action)

/-- The action of a keystroke where guards cannot be judged. -/
def lookup? (k : Keystroke) (m : Keymap) : Option Action := unguarded? (m.candidates k)

/-- The action of a keystroke. -/
def action? (k : Keystroke) (context : KeyContext) (m : Keymap) : Option Action :=
  let bindings := m.candidates k
  match bindings.find? (·.firesIn context) with
  | some b => some b.action
  | none => unguarded? bindings

/-- The keystrokes bound to an action, in a hint. -/
def display? (action : Action) (m : Keymap) : Option Text :=
  let keys := (m.bindings.filter (·.action = action)).map (·.keystroke.display)
  if keys.isEmpty then none else some (Text.join [',', ' '] keys)

end Keymap

/-- The messages of a keystroke: those of its action, or typing its character. -/
def keyMessages (e : Editor) (m : Keymap) (k : Keystroke) : List Message :=
  match m.action? k e.keyContext with
  | some action => action.messages e.focus
  | none => k.typed?.toList.map .insertChar

end FilterEditor
