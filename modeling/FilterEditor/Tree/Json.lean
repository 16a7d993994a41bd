import FilterEditor.Term.Json
import FilterEditor.Tree.Basic

/-!
# Filters as JSON

A condition is an object with `column`, `sign`, `value` and, where it has one, `label`; a chain is
an object with `operator` and `filters`. Both may be written as arrays of their parts, of which the
last may be cut off. A value is read as a chain if it can be, else as a condition. Unknown names are
ignored, known ones may stand once.
-/

namespace FilterEditor

namespace Connective

/-- The connective that a value names. -/
def ofJson? (value : Json) : Option Connective := value.choice?.bind ofSymbol?

end Connective

namespace Operand

/-- An operand as JSON. -/
def toJson : Operand → Json
  | flag value => .bool value
  | text value => .string (some value)

/-- The operand of a value. -/
def ofJson? : Json → Option Operand
  | .bool value => some (flag value)
  | .string s => s.map text
  | _ => none

end Operand

namespace Condition

/-- A condition as JSON. -/
def toJson (c : Condition) : Json :=
  .object <|
    [(some "column".toList, .string (some c.column)),
      (some "sign".toList, .string (some c.sign)), (some "value".toList, c.value.toJson)] ++
    (c.label.map fun label => (some "label".toList, Json.string (some label))).toList

/-- The condition of its four parts. -/
def ofParts? (column sign value label : Json) : Option Condition := do
  some
    { column := ← column.text?
      sign := ← sign.text?
      value := ← Operand.ofJson? value
      label := ← optionalWith Json.text? label }

/-- The condition that a value describes. -/
def ofJson? : Json → Option Condition
  | .object fields => do
    let column ← (Json.field "column" fields).required?
    let sign ← (Json.field "sign" fields).required?
    let value ← (Json.field "value" fields).required?
    let label ← (Json.field "label" fields).optional?
    ofParts? column sign value (label.getD .null)
  | .array [column, sign, value] => ofParts? column sign value .null
  | .array [column, sign, value, label] => ofParts? column sign value label
  | _ => none

end Condition

namespace Tree

mutual

/-- A filter as JSON. -/
def toJson : Tree → Json
  | .chain connective children =>
    .object
      [(some "operator".toList, .string (some connective.symbol)),
        (some "filters".toList, .array (listToJson children))]
  | .condition c => c.toJson

/-- Filters as JSON. -/
def listToJson : List Tree → List Json
  | [] => []
  | child :: children => child.toJson :: listToJson children

end

/-- The operator and the filters of a value that is written like a chain. -/
def chainParts? : Json → Option (Connective × List Json)
  | .object fields => do
    let operator ← (Json.field "operator" fields).required?
    let connective ← Connective.ofJson? operator
    match Json.field "filters" fields with
    | .missing => some (connective, [])
    | .value (.array items) => some (connective, items)
    | _ => none
  | .array [operator] => do some (← Connective.ofJson? operator, [])
  | .array [operator, .array items] => do some (← Connective.ofJson? operator, items)
  | _ => none

/-- The filter that a value describes, with chains nested at most as deep as `fuel` allows. -/
def decode? : Nat → Json → Option Tree
  | 0, _ => none
  | fuel + 1, value =>
    let asChain := do
      let (connective, items) ← chainParts? value
      let children ← items.mapM (decode? fuel)
      some (chain connective children)
    asChain <|> (Condition.ofJson? value).map condition

/-- How many arrays and objects may be nested. -/
def nestingLimit : Nat := 127

/-- The filter that a value describes, if the value is sound and not nested too deep. -/
def ofJson? (value : Json) : Option Tree :=
  if value.isSound && value.depth ≤ nestingLimit then decode? (nestingLimit + 1) value else none

/-- The filter of a JSON text. -/
def read? (text : Text) : Option Tree := (Json.read? text).bind ofJson?

end Tree
end FilterEditor
