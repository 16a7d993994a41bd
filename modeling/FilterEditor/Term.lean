import FilterEditor.Text.Basic

/-!
# Terms

A term is one token of a filter expression: a column, an operator, a value, a logical operator or a
parenthesis. It shows its label and stands in the search string with its search text. Editors for
free text hold terms without a kind.
-/

namespace FilterEditor

/-- The grammatical role of a term. -/
inductive Kind where
  | column
  | operator
  | value
  | logicalOperator
  | groupingOperator
deriving DecidableEq, Repr

namespace Kind

/-- Every kind, in the order in which a condition and its joiners use them. -/
def all : List Kind := [column, operator, value, logicalOperator, groupingOperator]

/-- The name of a kind in payloads and requests. -/
def name : Kind → Text
  | column => "column"
  | operator => "operator"
  | value => "value"
  | logicalOperator => "logical_operator"
  | groupingOperator => "grouping_operator"

/-- The kind of that name. -/
def ofName? (text : Text) : Option Kind := all.find? (·.name = text)

end Kind

/-- A term of a filter expression. -/
structure Term where
  /-- The text shown for the term. -/
  label : Text
  /-- The text that stands for the term in the search string. -/
  search : Text
  /-- A hint for rendering, which also tells an opening parenthesis from a closing one. -/
  tag : Option Text
  /-- The grammatical role, if the term has one. -/
  kind : Option Kind
deriving DecidableEq, Repr

namespace Term

/-- The tag of an opening parenthesis. -/
def openTag : Text := "grouping_operator_open"

/-- The tag of a closing parenthesis. -/
def closeTag : Text := "grouping_operator_close"

/-- The tag of a logical operator. -/
def logicalTag : Text := "logical_operator"

/-- The tag of a relational operator. -/
def operatorTag : Text := "operator"

/-- A term without a kind, whose label and search are the same text. -/
def plain (text : Text) : Term := ⟨text, text, none, none⟩

/-- A term of a kind, whose label and search are the same text. -/
def typed (text : Text) (kind : Kind) : Term := ⟨text, text, none, some kind⟩

/-- A term of a kind with a tag, whose label and search are the same text. -/
def token (text tag : Text) (kind : Kind) : Term := ⟨text, text, some tag, some kind⟩

/-- A column. -/
def column (text : Text) : Term := typed text .column

/-- A value. -/
def value (text : Text) : Term := typed text .value

/-- A relational operator. -/
def operator (sign : Text) : Term := token sign operatorTag .operator

/-- A logical operator. -/
def logical (symbol : Text) : Term := token symbol logicalTag .logicalOperator

/-- An opening parenthesis. -/
def groupOpen : Term := token ['('] openTag .groupingOperator

/-- A closing parenthesis. -/
def groupClose : Term := token [')'] closeTag .groupingOperator

/-- The relational operators in the order in which previews step through them. -/
def relationalOperators : List Term :=
  [operator ['='], operator ['!', '='], operator ['>'], operator ['<'], operator ['>', '='],
    operator ['<', '=']]

/-- The logical operators in the order in which previews step through them. -/
def logicalOperators : List Term := [logical ['&'], logical ['|']]

/-- A term with another label and the same search. -/
def withLabel (label : Text) (t : Term) : Term := { t with label }

/-- A term with another tag. -/
def withTag (tag : Text) (t : Term) : Term := { t with tag := some tag }

/-- Whether a term is of that kind. -/
def hasKind (kind : Kind) (t : Term) : Bool := t.kind == some kind

/-- Whether a term is an opening parenthesis: by its tag, or by its label where it has no tag. -/
def isGroupOpen (t : Term) : Bool :=
  t.hasKind .groupingOperator &&
    match t.tag with
    | some tag => tag == openTag
    | none => t.label == ['(']

end Term
end FilterEditor
