import FilterEditor.Text.Basic

/-!
# Filter trees

A filter is a single condition `column sign value` or a chain of filters joined by one logical
operator. Chains may be empty, also nested ones; a filter whose chains hold no condition at all is
empty.
-/

namespace FilterEditor

/-- How the filters of a chain are joined. -/
inductive Connective where
  /-- All filters match: `&`. -/
  | all
  /-- Any filter matches: `|`. -/
  | any
deriving DecidableEq, Repr

namespace Connective

/-- The symbol of a connective. -/
def symbol : Connective → Text
  | all => ['&']
  | any => ['|']

/-- The connective of a symbol. -/
def ofSymbol? (text : Text) : Option Connective := [all, any].find? (·.symbol = text)

end Connective

/-- The right-hand side of a condition. -/
inductive Operand where
  | flag (value : Bool)
  | text (value : Text)
deriving DecidableEq, Repr

namespace Operand

/-- The text of an operand; a flag is written as a digit. -/
def toText : Operand → Text
  | flag true => ['1']
  | flag false => ['0']
  | text value => value

end Operand

/-- A single condition. -/
structure Condition where
  column : Text
  sign : Text
  value : Operand
  /-- The label shown for the column, if it is not the column itself. -/
  label : Option Text := none
deriving DecidableEq, Repr

namespace Condition

/-- The label shown for the column. -/
def columnLabel (c : Condition) : Text := c.label.getD c.column

end Condition

/-- A filter: a chain of filters or a single condition. -/
inductive Tree where
  | chain (connective : Connective) (children : List Tree)
  | condition (condition : Condition)
deriving Repr, BEq

namespace Tree

mutual

/-- Whether a filter holds no condition. -/
def isEmpty : Tree → Bool
  | .chain _ children => allEmpty children
  | .condition _ => false

/-- Whether none of the filters holds a condition. -/
def allEmpty : List Tree → Bool
  | [] => true
  | child :: children => child.isEmpty && allEmpty children

end

mutual

/-- The column labels of all conditions of a filter, from left to right. -/
def columnLabels : Tree → List Text
  | .chain _ children => allColumnLabels children
  | .condition c => [c.columnLabel]

/-- The column labels of all conditions of the filters, from left to right. -/
def allColumnLabels : List Tree → List Text
  | [] => []
  | child :: children => child.columnLabels ++ allColumnLabels children

end

end Tree
end FilterEditor
