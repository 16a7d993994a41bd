import FilterEditor.Settings
import FilterEditor.Yaml.Node.Decode
import FilterEditor.Yaml.Node.Reader
import FilterEditor.Yaml.Printer

/-!
# Settings files

Settings are kept as a YAML record. Fields that are missing take their defaults, unknown ones are
ignored, and a placeholder that is not set is not written.
-/

namespace FilterEditor.Settings

/-- The settings of a document. -/
def ofDocument? (d : Yaml.Document) : Option Settings := do
  let fields ← d.fields? d.root
  let defaults : Settings := {}
  some
    { separator := ← Yaml.fieldOr? fields "separator" d.text? defaults.separator
      chooseTemplate := ← Yaml.fieldOr? fields "choose_template" d.text? defaults.chooseTemplate
      placeholder := ← Yaml.fieldOr? fields "placeholder" d.optionalText? defaults.placeholder
      termCompletion := ← Yaml.fieldOr? fields "term_completion" d.bool? defaults.termCompletion
      manageRequired := ← Yaml.fieldOr? fields "manage_required" d.bool? defaults.manageRequired }

/-- The settings of a file, if it holds a record of settings. -/
def read? (text : Text) : Option Settings := (Yaml.Document.read? text).bind ofDocument?

/-- The text of a settings file. -/
def write (s : Settings) : Text :=
  Yaml.writeField "separator" (Yaml.writeText s.separator) ++
    Yaml.writeField "choose_template" (Yaml.writeText s.chooseTemplate) ++
    (s.placeholder.map fun text => Yaml.writeField "placeholder" (Yaml.writeText text)).getD [] ++
    Yaml.writeField "term_completion" (Yaml.writeBool s.termCompletion) ++
    Yaml.writeField "manage_required" (Yaml.writeBool s.manageRequired)

end FilterEditor.Settings
