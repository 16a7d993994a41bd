import FilterEditor.Json.Printer
import FilterEditor.Json.Reader
import FilterEditor.Term

/-!
# Terms as JSON

A term is an object with `label` and `search` and, where it has them, `class` and `type`, or an
array of these four in this order, of which the last two may be cut off. A list of terms is read
strictly where a term lies; fields that describe no part of a term are skipped.
-/

namespace FilterEditor

namespace Json

/-- A field where one value is required. -/
def Field.required? : Field → Option Json
  | value v => some v
  | missing | repeated => none

/-- A field that may be missing or null; the outer `none` says that it is written twice. -/
def Field.optional? : Field → Option (Option Json)
  | missing | value null => some none
  | value v => some (some v)
  | repeated => none

/-- The text of a string. -/
def text? : Json → Option Text
  | string s => s
  | _ => none

/-- The name of a choice: a string, or an object whose only field is null. -/
def choice? : Json → Option Text
  | string s => s
  | object [(name, null)] => name
  | _ => none

end Json

/-- The value of a part that may be absent. -/
def optionalWith (read : Json → Option α) : Json → Option (Option α)
  | .null => some none
  | value => (read value).map some

namespace Kind

/-- The kind that a value names. -/
def ofJson? (value : Json) : Option Kind := value.choice?.bind ofName?

end Kind

namespace Term

/-- A term as JSON. -/
def toJson (t : Term) : Json :=
  .object <|
    [(some "label".toList, .string (some t.label)),
      (some "search".toList, .string (some t.search))] ++
    (t.tag.map fun tag => (some "class".toList, Json.string (some tag))).toList ++
    (t.kind.map fun kind => (some "type".toList, Json.string (some kind.name))).toList

/-- The term of its four parts. -/
def ofParts? (label search tag kind : Json) : Option Term := do
  some
    { label := ← label.text?
      search := ← search.text?
      tag := ← optionalWith Json.text? tag
      kind := ← optionalWith Kind.ofJson? kind }

/-- The term that a value describes. -/
def ofJson? : Json → Option Term
  | .object fields => do
    if fields.any (·.1.isNone) then none
    else
      let label ← (Json.field "label" fields).required?
      let search ← (Json.field "search" fields).required?
      let tag ← (Json.field "class" fields).optional?
      let kind ← (Json.field "type" fields).optional?
      ofParts? label search (tag.getD .null) (kind.getD .null)
  | .array [label, search] => ofParts? label search .null .null
  | .array [label, search, tag] => ofParts? label search tag .null
  | .array [label, search, tag, kind] => ofParts? label search tag kind
  | _ => none

/-- The terms of a JSON text that holds an array of terms. -/
def readList? (text : Text) : Option (List Term) :=
  match Json.read? text with
  | some (.array items) => items.mapM ofJson?
  | _ => none

end Term
end FilterEditor
