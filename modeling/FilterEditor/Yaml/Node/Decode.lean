import FilterEditor.Yaml.Node

/-!
# Values of nodes

What a program takes from a node that it expects to be a text, a truth value, a list or a record. Aliases
are followed. Where nothing is written, a list or a record is empty.
-/

namespace FilterEditor.Yaml

/-- The full form of the tag of nothing. -/
def nullTag : Text := "tag:yaml.org,2002:null"

/-- The full form of the tag of truth values. -/
def boolTag : Text := "tag:yaml.org,2002:bool"

/-- Whether a plain scalar says that there is nothing. -/
def isNull (text : Text) : Bool :=
  text = "null".toList || text = "Null".toList || text = "NULL".toList || text = ['~']

/-- The truth value that a scalar says. -/
def readBool? (text : Text) : Option Bool :=
  if text = "true".toList ∨ text = "True".toList ∨ text = "TRUE".toList then some true
  else if text = "false".toList ∨ text = "False".toList ∨ text = "FALSE".toList then some false
  else none

namespace Document

/-- The text of a scalar. -/
def text? (d : Document) (n : Node) : Option Text :=
  match d.resolve n with
  | .scalar _ _ text => some text
  | _ => none

/-- The text of a scalar, or nothing where a plain one says so; the outer `none` says that there is
neither. -/
def optionalText? (d : Document) (n : Node) : Option (Option Text) :=
  match d.resolve n with
  | .scalar none .plain text => some (if text.isEmpty || isNull text then none else some text)
  | .scalar (some tag) .plain text =>
    if tag = nullTag then (if isNull text then some none else none) else some (some text)
  | .scalar _ _ text => some (some text)
  | _ => none

/-- The truth value of a scalar: a plain one, or a literal one with the tag of truth values. -/
def bool? (d : Document) (n : Node) : Option Bool :=
  match d.resolve n with
  | .scalar _ .plain text => readBool? text
  | .scalar (some tag) .literal text => if tag = boolTag then readBool? text else none
  | _ => none

/-- The values of a sequence. -/
def list? (d : Document) (read : Node → Option α) (n : Node) : Option (List α) :=
  match d.resolve n with
  | .sequence items => items.mapM read
  | node => if node.isEmpty then some [] else none

/-- The fields of a mapping, whose keys have to be scalars. -/
def fields? (d : Document) (n : Node) : Option (List (Text × Node)) :=
  match d.resolve n with
  | .mapping fields => fields.mapM fun field => (d.text? field.1).map fun name => (name, field.2)
  | node => if node.isEmpty then some [] else none

end Document

/-- The value of the field of a name, if there is one; it may not be repeated. -/
def optionalField? (fields : List (Text × Node)) (name : Text) (read : Node → Option α) :
    Option (Option α) :=
  match fields.filter (·.1 = name) with
  | [] => some none
  | [(_, node)] => (read node).map some
  | _ => none

/-- The value of the field of a name, or the given value where it is missing. -/
def fieldOr? (fields : List (Text × Node)) (name : Text) (read : Node → Option α) (default : α) :
    Option α :=
  (optionalField? fields name read).map (·.getD default)

/-- The value of the field of a name, which may not be missing. -/
def requiredField? (fields : List (Text × Node)) (name : Text) (read : Node → Option α) : Option α :=
  (optionalField? fields name read).bind id

end FilterEditor.Yaml
