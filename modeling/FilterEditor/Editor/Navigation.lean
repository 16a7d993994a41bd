import FilterEditor.Editor.Commit

/-!
# Moving the focus

The slots form a cycle: the term slots in order, then the trailing input. A move is only asked for
here; the editor follows once the display reports the slot in focus. Leaving a term slot saves its
draft, and an invalid draft keeps the focus.
-/

namespace FilterEditor.Editor

/-- The slot after the one in focus. -/
def nextSlot? (e : Editor) : Option Slot :=
  match e.focus with
  | .term index => some (if index + 1 < e.terms.length then .term (index + 1) else .input)
  | .input => if e.hasTerms then some (.term 0) else none

/-- The slot before the one in focus. -/
def previousSlot? (e : Editor) : Option Slot :=
  match e.focus with
  | .term 0 => some .input
  | .term (index + 1) => some (.term index)
  | .input => if e.hasTerms then some (.term (e.terms.length - 1)) else none

/-- Asks to move the focus to a slot, if there is one. -/
def focusEffects (slot : Option Slot) : List Effect := slot.toList.map .focus

/-- Takes over the focus that the display gave to a slot. -/
def enter (slot : Slot) (e : Editor) : Change :=
  let e := { e with
    focus := slot
    validity := none
    draft := (slot.index?.bind e.terms.get?).map fun t : Term => Line.ofText t.label }
  match slot with
  | .term _ => e.unchanged
  | .input =>
    let e := { e with preview := e.grammar.previewFor e.expected }
    ⟨e, e.previewEffects⟩

/-- The display moved the focus to a slot. -/
def focused (slot : Slot) (e : Editor) : Change :=
  if slot = e.focus ∨ slot.index?.any (e.terms.length ≤ ·) then e.unchanged
  else
    match e.focus with
    | .input => e.enter slot
    | .term left =>
      match e.save left with
      | (true, saved) => saved.andThen (enter slot)
      | (false, refused) => refused.andShow fun e => [.focus e.focus]

end FilterEditor.Editor
