import FilterEditor.Editor.Commit
import FilterEditor.Term.Json
import FilterEditor.Tree.Flatten

/-!
# Loading, refreshing, resetting and submitting

A payload is checked before anything changes, so a refused one leaves the editor as it was. Slots that
the display already shows are kept; every other payload replaces them.
-/

namespace FilterEditor

/-- Why a payload cannot be restored. -/
inductive LoadError where
  /-- A term of a filter has no kind. -/
  | missingKind (index : Nat)
  /-- Slots are not numbered from zero in order, or not as many as the display shows. -/
  | indexMismatch (expected found : Nat)
  /-- The JSON text holds no array of terms. -/
  | invalidJson
deriving DecidableEq, Repr

namespace LoadError

/-- What is said about a payload. -/
def message : LoadError → Text
  | missingKind index => "Term at index ".toList ++ Text.ofNat index ++ " has no type".toList
  | indexMismatch expected found =>
    "Slot index mismatch: expected ".toList ++ Text.ofNat expected ++ " but found ".toList ++
      Text.ofNat found
  | invalidJson => "Invalid term JSON"

end LoadError

namespace Editor

/-- Refuses terms without a kind where the grammar needs kinds. -/
def checkTerms (grammar : Grammar) (terms : List Term) : Except LoadError Unit :=
  if grammar.requiresKinds then
    match terms.findIdx? (·.kind.isNone) with
    | some index => .error (.missingKind index)
    | none => .ok ()
  else .ok ()

/-- Refuses slots that are not numbered in order from `first`. -/
def checkSlotsFrom (first : Nat) : List SlotMeta → Except LoadError Unit
  | [] => .ok ()
  | slot :: slots =>
    if slot.index = first then checkSlotsFrom (first + 1) slots
    else .error (.indexMismatch first slot.index)

/-- Refuses slots that are not numbered in order from zero. -/
def checkSlots (slots : List SlotMeta) : Except LoadError Unit := checkSlotsFrom 0 slots

/-- The terms of a payload. -/
def payloadTerms : Payload → Except LoadError (List Term)
  | .slots metas => do
    checkSlots metas
    .ok (metas.map (·.term))
  | .json text =>
    match Term.readList? text with
    | some terms => .ok terms
    | none => .error .invalidJson
  | .tree tree => .ok tree.terms
  | .terms terms => .ok terms

/-- Whether the slots of a payload are already on the display. -/
def isRendered : Payload → Bool
  | .slots _ => true
  | _ => false

/-- An editor with committed terms. -/
def ofTerms (settings : Settings) (grammar : Grammar) (terms : List Term) :
    Except LoadError Editor := do
  checkTerms grammar terms
  .ok ((new settings grammar).restore terms)

/-- An editor for a filter. -/
def ofTree (settings : Settings) (tree : Tree) : Editor :=
  (new settings .filter).restore tree.terms

/-- Removes the slots of all terms, last first. -/
def removalEffects (e : Editor) : List Effect :=
  (List.range e.terms.length).reverse.map .removeSlot

/-- Renders all terms. -/
def renderEffects (e : Editor) : List Effect :=
  e.terms.terms.mapIdx .renderTerm

/-- Shows what stands beside the term slots. -/
def settledEffects (e : Editor) : List Effect :=
  .writeValue .input [] :: .syncValue e.serialized :: e.previewEffects ++ e.placeholderEffects

/-- Restores the terms of a payload, or says why it is refused. -/
def load (payload : Payload) (e : Editor) : Except LoadError Change := do
  let terms ← payloadTerms payload
  checkTerms e.grammar terms
  let restored := e.restore terms
  .ok
    ⟨restored,
      if isRendered payload then restored.settledEffects
      else e.removalEffects ++ restored.renderEffects ++ restored.settledEffects⟩

/-- Renders all terms again and drops everything under way. -/
def refresh (e : Editor) : Change :=
  let restored := e.restore e.terms.terms
  ⟨restored, restored.renderEffects ++ restored.settledEffects⟩

/-- Removes all terms and drops everything under way. -/
def reset (e : Editor) : Change :=
  let restored := e.restore []
  ⟨restored, e.removalEffects ++ restored.settledEffects⟩

/-- Marks the input as required while there are no terms, where the settings ask for it. -/
def markRequired (e : Editor) : Change :=
  if e.settings.manageRequired then
    let required := !e.hasTerms
    ⟨{ e with required }, [.setRequired required]⟩
  else e.unchanged

/-- Commits the trailing input and hands on the search string. -/
def submit (e : Editor) : Change :=
  (((e.exchange).andShow placeholderEffects).andThen markRequired).andShow fun e =>
    [.submit e.serialized]

end Editor
end FilterEditor
