import FilterEditor.Term
import FilterEditor.Tree.Basic

/-!
# Flattening filters

The terms that an editor shows for a filter: the conditions from left to right, the operator of a
chain between its members and parentheses around nested chains. Empty filters leave no trace. A
condition that says that a column is true may be written as the column alone.
-/

namespace FilterEditor

/-- How conditions with the operand `true` are written. -/
inductive Form where
  /-- As the column alone. -/
  | compact
  /-- With operator and value, like every other condition. -/
  | full
deriving DecidableEq, Repr

/-- The terms of a condition. -/
def Condition.terms (form : Form) (c : Condition) : List Term :=
  let column := (Term.column c.column).withLabel c.columnLabel
  if form = .compact ∧ c.value = .flag true then [column]
  else [column, Term.operator c.sign, Term.value c.value.toText]

/-- The term of a connective. -/
def Connective.term (c : Connective) : Term := Term.logical c.symbol

namespace Tree

mutual

/-- The terms of a filter as a member of a chain: a nested chain stands in parentheses. -/
def memberTerms (form : Form) : Tree → List Term
  | .chain connective children =>
    Term.groupOpen :: (List.intercalate [connective.term] (members form children) ++
      [Term.groupClose])
  | .condition c => c.terms form

/-- The terms of each filter that is not empty. -/
def members (form : Form) : List Tree → List (List Term)
  | [] => []
  | child :: children =>
    if child.isEmpty then members form children
    else child.memberTerms form :: members form children

end

/-- The terms of a chain that stands on its own. -/
def chainTerms (form : Form) (connective : Connective) (children : List Tree) : List Term :=
  List.intercalate [connective.term] (members form children)

/-- The terms that the editor shows for a filter. -/
def terms : Tree → List Term
  | .chain connective children => chainTerms .compact connective children
  | .condition c => c.terms .compact

end Tree
end FilterEditor
