import FilterEditor.Text.Casing
import FilterEditor.Term

/-!
# Suggestions

What a completer hands to the editor: a bare value, or named fields that describe a term. Field
names start with `term`; what follows, with its first letter in lower case, says which part of the
term the field holds. A term written as fields and read back is the same term.
-/

namespace FilterEditor

/-- Named fields in ascending order of their names, each name once. -/
abbrev Fields := List (Text × Text)

namespace Fields

/-- The fields with one more; a field of the same name is replaced. -/
def insert (name value : Text) : Fields → Fields
  | [] => [(name, value)]
  | field :: fields =>
    if field.1 = name then (name, value) :: fields
    else if name < field.1 then (name, value) :: field :: fields
    else field :: insert name value fields

/-- The fields of a list, of which the last of each name counts. -/
def ofList (fields : List (Text × Text)) : Fields :=
  fields.foldl (fun all field => all.insert field.1 field.2) []

end Fields

/-- The start of the names of all fields that describe a term. -/
def fieldStart : Text := "term"

namespace Term

/-- A term under construction from fields: the label and the search may still be missing. -/
structure Draft where
  label : Option Text := none
  search : Option Text := none
  tag : Option Text := none
  kind : Option Kind := none
deriving DecidableEq, Repr

/-- The draft after one more field; fields that describe no part of a term are skipped. -/
def Draft.addField (d : Draft) (field : Text × Text) : Draft :=
  match fieldStart.isPrefixOf? field.1 with
  | none => d
  | some part =>
    let part := Casing.lowerFirst part
    if part = "label".toList then { d with label := some field.2 }
    else if part = "search".toList then { d with search := some field.2 }
    else if part = "class".toList then { d with tag := some field.2 }
    else if part = "type".toList then { d with kind := Kind.ofName? field.2 }
    else d

/-- The term of a draft: a missing label is the search, a missing search is the label. -/
def Draft.toTerm (d : Draft) : Term :=
  { label := d.label.getD (d.search.getD [])
    search := d.search.getD (d.label.getD [])
    tag := d.tag
    kind := d.kind }

/-- The term that fields describe. -/
def ofFields (fields : Fields) : Term := (fields.foldl Draft.addField {}).toTerm

/-- The fields that describe a term. -/
def toFields (t : Term) : Fields :=
  (t.tag.map fun tag => (fieldStart ++ "Class".toList, tag)).toList ++
    [(fieldStart ++ "Label".toList, t.label), (fieldStart ++ "Search".toList, t.search)] ++
    (t.kind.map fun kind => (fieldStart ++ "Type".toList, kind.name)).toList

end Term

/-- What a completer hands to the editor. -/
inductive Suggestion where
  /-- A bare value, both label and search. -/
  | plain (value : Text)
  /-- A term described by fields. -/
  | record (fields : Fields)
deriving DecidableEq, Repr

namespace Suggestion

/-- The term that a suggestion stands for. -/
def toTerm : Suggestion → Term
  | plain value => Term.plain value
  | record fields => Term.ofFields fields

/-- The suggestion that stands for a term. -/
def ofTerm (t : Term) : Suggestion := record t.toFields

end Suggestion
end FilterEditor
