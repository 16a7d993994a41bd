import FilterEditor.Editor.Basic
import FilterEditor.Text.Literal

/-!
# Snapshots

The part of an editor that is worth a line in a log, and the description of what changed between two
snapshots.
-/

namespace FilterEditor

/-- What a log shows of an editor. -/
structure Snapshot where
  serialized : Text
  termCount : Nat
  input : Text
  focus : Slot
  preview : Option Text
  selectedCount : Nat
deriving DecidableEq, Repr

namespace Editor

/-- The snapshot of an editor. -/
def snapshot (e : Editor) : Snapshot :=
  ⟨e.serialized, e.terms.length, e.input.text, e.focus, e.preview.map (·.label),
    e.selected.length⟩

end Editor

namespace Snapshot

/-- A slot in a description. -/
def describeSlot : Slot → Text
  | .input => "Input"
  | .term index => "Term(".toList ++ Text.ofNat index ++ [')']

/-- A preview in a description. -/
def describePreview : Option Text → Text
  | none => "None"
  | some label => "Some(".toList ++ Literal.quote label ++ [')']

/-- A value before and after. -/
def arrow (before after : Text) : Text := before ++ [' ', '→', ' '] ++ after

/-- A named value before and after, if it changed. -/
def changed [DecidableEq α] (name : Text) (describe : α → Text) (before after : α) : List Text :=
  if before = after then [] else [name ++ [':', ' '] ++ arrow (describe before) (describe after)]

/-- What changed between two snapshots, if anything did. -/
def difference? (before after : Snapshot) : Option Text :=
  let counts :=
    " (".toList ++ arrow (Text.ofNat before.termCount) (Text.ofNat after.termCount) ++ [')']
  let changes :=
    (changed "terms" Literal.quote before.serialized after.serialized).map (· ++ counts) ++
      changed "input" Literal.quote before.input after.input ++
      changed "focus" describeSlot before.focus after.focus ++
      changed "preview" describePreview before.preview after.preview ++
      changed "selected" Text.ofNat before.selectedCount after.selectedCount
  if changes.isEmpty then none else some (Text.join [';', ' '] changes)

end Snapshot
end FilterEditor
