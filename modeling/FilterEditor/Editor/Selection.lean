import FilterEditor.Editor.Basic

/-!
# Selecting and removing terms

Removing a term moves the selection and the focus of later terms along with them. A selection is
removed from its last term to its first, so that the indices still to come stay right.
-/

namespace FilterEditor.Editor

/-- An index after the removal of the term at `removed`. -/
def shiftIndex (removed index : Nat) : Nat := if removed < index then index - 1 else index

/-- Moves the focus along with its term; the term in focus gives it to the trailing input. -/
def refocus (removed : Nat) (e : Editor) : Editor :=
  match e.focus with
  | .input => e
  | .term focused =>
    if focused = removed then { e with focus := .input, draft := none, validity := none }
    else { e with focus := .term (shiftIndex removed focused) }

/-- Removes the term at an index. -/
def remove (index : Nat) (e : Editor) : Change :=
  match e.terms.remove? index with
  | none => e.unchanged
  | some (_, terms) =>
    let selected := (e.selected.filter (· ≠ index)).map (shiftIndex index)
    let e := ({ e with terms, selected }.refocus index).reposition
    ⟨e, .removeSlot index :: .syncValue e.serialized :: e.previewEffects⟩

/-- Removes the last term and calls off requests of completers. -/
def pop (e : Editor) : Change :=
  if e.hasTerms then
    (e.remove (e.terms.length - 1)).andShow fun _ => [.notify .abortCompletion]
  else e.unchanged

/-- Removes the selected terms. -/
def clearSelected (e : Editor) : Change :=
  if e.hasTerms then e.selected.reverse.foldl (fun c index => c.andThen (remove index)) e.unchanged
  else e.unchanged

/-- Selects every term. -/
def selectAll (e : Editor) : Change :=
  let selected := List.range e.terms.length
  ⟨{ e with selected }, selected.map fun index => .setSelected index true⟩

/-- Selects no term. -/
def deselect (e : Editor) : Change :=
  ⟨{ e with selected := [] }, e.selected.map fun index => .setSelected index false⟩

/-- A selection with one more index. -/
def insertIndex (index : Nat) : List Nat → List Nat
  | [] => [index]
  | i :: rest => if index < i then index :: i :: rest else i :: insertIndex index rest

/-- Selects the term at an index, or takes it out of the selection. -/
def toggle (index : Nat) (e : Editor) : Change :=
  if e.terms.length ≤ index then e.unchanged
  else if index ∈ e.selected then
    ⟨{ e with selected := e.selected.filter (· ≠ index) }, [.setSelected index false]⟩
  else ⟨{ e with selected := insertIndex index e.selected }, [.setSelected index true]⟩

end FilterEditor.Editor
