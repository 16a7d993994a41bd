import FilterEditor.Editor.Commit

/-!
# Completers

Requests tell a completer what is typed and which condition it belongs to; suggestions come back into
a slot and are carried to the next commit.
-/

namespace FilterEditor.Editor

/-- The search of the term that stands `distance` places before a slot. -/
def searchBefore (e : Editor) (slot : Slot) (distance : Nat) : Option Text :=
  let position := slot.index?.getD e.terms.length
  if position < distance then none else (e.terms.get? (position - distance)).map (·.search)

/-- Asks to continue a slot in focus: value slots name their operator and column, operator slots
their column. -/
def requestEffects (slot : Slot) (label : Text) (e : Editor) : List Effect :=
  if e.settings.termCompletion && e.focus == slot then
    let kind := e.slotKind slot
    let (column, operator) :=
      match kind with
      | some .value => (e.searchBefore slot 2, e.searchBefore slot 1)
      | some .operator => (e.searchBefore slot 1, none)
      | _ => (none, none)
    [.notify (.complete ⟨label, kind, slot.index?, column, operator⟩)]
  else []

/-- Writes a suggestion into the trailing input or the term slot in focus and carries it to the next
commit; `none` for another term slot. -/
def writeSuggestion? (slot : Slot) (data : Suggestion) (e : Editor) : Option Change :=
  let t := data.toTerm
  let written : Option Editor :=
    match slot with
    | .input => some { e with input := Line.ofText t.label }
    | .term _ =>
      if e.focus = slot ∧ e.draft.isSome then some { e with draft := some (Line.ofText t.label) }
      else none
  written.map fun e => ⟨{ e with carried := some t }, [.writeValue slot t.label]⟩

/-- A suggestion is highlighted: it is written into the slot. -/
def suggest (slot : Slot) (data : Suggestion) (e : Editor) : Change :=
  match e.writeSuggestion? slot data with
  | none => e.unchanged
  | some c => c.andShow fun e => e.requestEffects slot (e.slotText slot)

/-- A suggestion is chosen: it is written into the slot, and the trailing input is committed. -/
def complete (slot : Slot) (data : Suggestion) (e : Editor) : Change :=
  match e.writeSuggestion? slot data with
  | none => e.unchanged
  | some c => if slot.isInput then (c.andThen exchange).andShow placeholderEffects else c

end FilterEditor.Editor
