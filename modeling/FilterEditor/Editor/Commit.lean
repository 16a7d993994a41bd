import FilterEditor.Editor.Basic

/-!
# Committing and saving terms

A committed term joins the end of the sequence; a saved draft replaces the label and search of the
term it was opened on. Both take up the carried suggestion if its label is the text of the slot.
-/

namespace FilterEditor.Editor

/-- Appends a term and goes on to the kind expected next. -/
def add (t : Term) (e : Editor) : Change :=
  let e' := { e with terms := e.terms.push t }.reposition
  ⟨e', .renderTerm e.terms.length t :: .syncValue e'.serialized :: e'.previewEffects⟩

/-- A term with what a carried suggestion adds to it: its search, its tag and, for a term without
kind, its kind. -/
def adopt (suggestion : Term) (t : Term) : Term :=
  { t with
    search := suggestion.search
    tag := suggestion.tag.or t.tag
    kind := t.kind.or suggestion.kind }

/-- The term that the text of a slot stands for; `none` for a blank text. -/
def reading (slot : Slot) (e : Editor) : Option Term :=
  let value := (e.slotText slot).trim
  if value.isEmpty then none
  else
    let base := ((slot.index?.bind e.terms.get?).getD (Term.plain []))
    let typed := { base with label := value, search := value }
    let adopted :=
      match e.carried with
      | some suggestion => if suggestion.label = value then adopt suggestion typed else typed
      | none => typed
    let t := { adopted with kind := adopted.kind.or e.expected }
    some (e.grammar.prepare t)

/-- The term that the text of a slot stands for, with the editor whose carried suggestion is used up. -/
def read? (slot : Slot) (e : Editor) : Option (Term × Editor) :=
  (e.reading slot).map fun t => (t, { e with carried := none })

/-- Commits the text of the trailing input, unless it is blank. -/
def exchange (e : Editor) : Change :=
  match e.read? .input with
  | none => e.unchanged
  | some (t, e) =>
    let added := e.add t
    ⟨{ added.editor with input := {} },
      .notify .resetCompletion :: added.effects ++ [.writeValue .input []]⟩

/-- Saves the draft of the term at an index and says whether its slot may be left. An invalid draft
stays with its message; a blank one turns back into the label. -/
def save (index : Nat) (e : Editor) : Bool × Change :=
  let slot := Slot.term index
  match e.terms.get? index, e.draft with
  | some current, some draft =>
    if e.focus ≠ slot then (true, e.unchanged)
    else
      match e.check slot draft.text with
      | .invalid message =>
        (false, ⟨{ e with validity := some message },
          [.setValidity slot (some message), .reportValidity slot]⟩)
      | .valid =>
        let e := { e with validity := none }
        match e.read? slot with
        | none =>
          (true, ⟨{ e with draft := some (Line.ofText current.label) },
            [.writeValue slot current.label]⟩)
        | some (t, e) =>
          match e.terms.replace? index t with
          | none => (true, e.unchanged)
          | some terms =>
            let e := { e with terms }
            (true, ⟨e, [.updateTerm index t, .syncValue e.serialized]⟩)
  | _, _ => (true, e.unchanged)

end FilterEditor.Editor
