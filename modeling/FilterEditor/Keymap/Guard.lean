import FilterEditor.Editor.Basic
import FilterEditor.Text.Casing

/-!
# Guards

A binding may be guarded: it then counts only while all its guards hold of the editor.
-/

namespace FilterEditor

/-- What guards look at. -/
structure KeyContext where
  /-- The trailing input has the focus, and no term slot. -/
  trailingInput : Bool
  /-- The slot in focus holds no text. -/
  inputEmpty : Bool
  /-- A preview is shown. -/
  hasPreview : Bool
  /-- There are committed terms. -/
  hasTerms : Bool
deriving DecidableEq, Repr

namespace Editor

/-- What guards see of an editor. -/
def keyContext (e : Editor) : KeyContext :=
  { trailingInput := e.focus.isInput
    inputEmpty := (e.slotText e.focus).isEmpty
    hasPreview := e.preview.isSome
    hasTerms := e.hasTerms }

end Editor

/-- A condition on the editor. -/
inductive Guard where
  | trailingInput
  | termSlot
  | inputEmpty
  | hasPreview
  | hasTerms
deriving DecidableEq, Repr

namespace Guard

/-- Every guard. -/
def all : List Guard := [trailingInput, termSlot, inputEmpty, hasPreview, hasTerms]

/-- The name of a guard in listings. -/
def name : Guard → Text
  | trailingInput => "TrailingInput"
  | termSlot => "TermSlot"
  | inputEmpty => "InputEmpty"
  | hasPreview => "HasPreview"
  | hasTerms => "HasTerms"

/-- The spellings of a guard in keymap files, in lower case and without underscores. -/
def spellings : Guard → List Text
  | trailingInput => ["trailinginput", "input"]
  | termSlot => ["termslot", "term"]
  | inputEmpty => ["inputempty", "empty"]
  | hasPreview => ["haspreview", "preview"]
  | hasTerms => ["hasterms", "terms"]

/-- The guard of a spelling; case and underscores do not matter. -/
def ofName? (text : Text) : Option Guard :=
  let wanted := (text.filter (· ≠ '_')).flatMap Casing.lower
  all.find? fun guard => guard.spellings.contains wanted

/-- Whether a guard holds. -/
def holds (context : KeyContext) : Guard → Bool
  | trailingInput => context.trailingInput
  | termSlot => !context.trailingInput
  | inputEmpty => context.inputEmpty
  | hasPreview => context.hasPreview
  | hasTerms => context.hasTerms

end Guard
end FilterEditor
