import FilterEditor.Editor.Message
import FilterEditor.Grammar
import FilterEditor.Line
import FilterEditor.Sequence
import FilterEditor.Settings

/-!
# Editors

The state of one editor: its committed terms, the trailing input, the slot in focus with the draft
of its text, the preview, the suggestion carried to the next commit, the selection and the marks that
the display shows. A change is an editor after a message with the effects that show it.
-/

namespace FilterEditor

/-- The state of an editor. -/
structure Editor where
  settings : Settings
  grammar : Grammar
  terms : Sequence
  /-- The kind expected of the next committed term. -/
  expected : Option Kind
  /-- The trailing input. -/
  input : Line
  /-- The slot in focus. -/
  focus : Slot
  /-- The edited text of the term slot in focus. -/
  draft : Option Line
  /-- The token shown behind the trailing input. -/
  preview : Option Term
  /-- The suggestion last written into a slot, until a commit takes it up. -/
  carried : Option Term
  /-- The indices of the selected terms, ascending. -/
  selected : List Nat
  /-- The validation message of the slot in focus. -/
  validity : Option Text
  /-- Whether the input is marked as required. -/
  required : Bool
deriving DecidableEq, Repr

namespace Editor

/-- The search string of the committed terms. -/
def serialized (e : Editor) : Text := e.terms.serialized

/-- Whether any term is committed. -/
def hasTerms (e : Editor) : Bool := !e.terms.isEmpty

/-- The kind expected after a term, or at the start. -/
def expectedAfter (e : Editor) : Option Term → Option Kind
  | some t => e.grammar.nextKind t
  | none => e.grammar.initialKind

/-- Derives the expected kind and the preview from the last committed term. -/
def reposition (e : Editor) : Editor :=
  let expected := e.expectedAfter e.terms.last?
  { e with expected, preview := e.grammar.previewFor expected }

/-- Replaces the committed terms and drops everything under way. -/
def restore (terms : List Term) (e : Editor) : Editor :=
  { e with
    terms := Sequence.ofTerms e.settings.separator terms
    input := {}
    focus := .input
    draft := none
    carried := none
    selected := []
    validity := none }.reposition

/-- An editor without terms. -/
def new (settings : Settings) (grammar : Grammar) : Editor :=
  { settings
    grammar
    terms := Sequence.empty settings.separator
    expected := none
    input := {}
    focus := .input
    draft := none
    preview := none
    carried := none
    selected := []
    validity := none
    required := false : Editor }.reposition

/-- The kind of the term that a slot holds or will hold. -/
def slotKind (e : Editor) : Slot → Option Kind
  | .input => e.expected
  | .term index => (e.terms.get? index).bind (·.kind)

/-- The committed term right before a slot. -/
def preceding (e : Editor) : Slot → Option Term
  | .input => e.terms.last?
  | .term 0 => none
  | .term (index + 1) => e.terms.get? index

/-- What surrounds a slot. -/
def slotContext (e : Editor) (slot : Slot) : Context := ⟨e.input.text, e.preceding slot⟩

/-- The text of a slot: the trailing input, the draft of the slot in focus or the label of the
term. -/
def slotText (e : Editor) : Slot → Text
  | .input => e.input.text
  | .term index =>
    let label := ((e.terms.get? index).map (·.label)).getD []
    if e.focus = .term index then (e.draft.map (·.text)).getD label else label

/-- The placeholder of the trailing input. -/
def placeholder (e : Editor) : Text :=
  if e.hasTerms then [] else e.settings.placeholder.getD []

/-- What is said about a text in a slot. -/
def check (e : Editor) (slot : Slot) (text : Text) : Verdict :=
  e.grammar.check text (e.slotKind slot) (e.slotContext slot) e.settings.chooseTemplate

/-- The line that is edited in a slot: the trailing input, or the draft for any term slot. -/
def line? (e : Editor) : Slot → Option Line
  | .input => some e.input
  | .term _ => e.draft

/-- Puts back the line that is edited in a slot. -/
def withLine (e : Editor) (slot : Slot) (line : Line) : Editor :=
  match slot with
  | .input => { e with input := line }
  | .term _ => { e with draft := some line }

/-- Edits the line of a slot; `none` if nothing changes. -/
def edit? (e : Editor) (slot : Slot) (change : Line → Option Line) : Option Editor :=
  ((e.line? slot).bind change).map (e.withLine slot)

end Editor

/-- An editor after a message, with the effects that show what happened. -/
structure Change where
  editor : Editor
  effects : List Effect
deriving DecidableEq, Repr

namespace Change

/-- Goes on with a further step. -/
def andThen (c : Change) (step : Editor → Change) : Change :=
  let next := step c.editor
  ⟨next.editor, c.effects ++ next.effects⟩

/-- Goes on with effects that only show the editor. -/
def andShow (c : Change) (effects : Editor → List Effect) : Change :=
  ⟨c.editor, c.effects ++ effects c.editor⟩

end Change

namespace Editor

/-- Nothing happens. -/
def unchanged (e : Editor) : Change := ⟨e, []⟩

/-- Shows the preview. -/
def previewEffects (e : Editor) : List Effect := [.showPreview (e.preview.map (·.label))]

/-- Shows the placeholder. -/
def placeholderEffects (e : Editor) : List Effect := [.setPlaceholder e.placeholder]

/-- Shows the text of a slot. -/
def writeEffects (slot : Slot) (e : Editor) : List Effect :=
  [.writeValue slot (e.slotText slot)]

end Editor
end FilterEditor
