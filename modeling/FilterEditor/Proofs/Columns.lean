import FilterEditor.Proofs.Recital
import FilterEditor.SuggestionList

/-!
# Columns of filters

The columns of a filter are found twice: by a walk over the tree, and among the terms that it is flattened
to, in either form. `columns_in_step` says that both find the same labels in the same order, so a list
that searches with the conditions of a chain names the columns of the chain. The terms of a filter are
joined by one logical operator fewer than it has columns, however the filter is nested.
-/

namespace FilterEditor

/-- The labels of the columns among terms. -/
def columnsAmong (ts : List Term) : List Text := (ts.filter (·.hasKind .column)).map (·.label)

/-- How many logical operators there are among terms. -/
def joinersAmong (ts : List Term) : Nat := ts.countP (·.hasKind .logicalOperator)

variable {form : Form} {t : Term} {ts us : List Term}

@[simp]
lemma columnsAmong_append : columnsAmong (ts ++ us) = columnsAmong ts ++ columnsAmong us := by
  rw [columnsAmong, List.filter_append, List.map_append]
  rfl

@[simp]
lemma joinersAmong_append : joinersAmong (ts ++ us) = joinersAmong ts + joinersAmong us :=
  List.countP_append

lemma Term.Joint.columnsAmong_cons (h : t.Joint) : columnsAmong (t :: ts) = columnsAmong ts := by
  cases h <;> rfl

@[simp]
lemma columnsAmong_condition (c : Condition) : columnsAmong (c.terms form) = [c.columnLabel] := by
  rcases c.terms_cases form with eq | eq <;> rw [eq] <;> rfl

@[simp]
lemma joinersAmong_condition (c : Condition) : joinersAmong (c.terms form) = 0 := by
  rcases c.terms_cases form with eq | eq <;> rw [eq] <;> rfl

/-- Terms that name conditions in order have their columns. -/
lemma Recital.columnsAmong {cs : List Condition} (h : Recital form cs ts) :
    columnsAmong ts = cs.map (·.columnLabel) := by
  induction h with
  | nil => rfl
  | joint joint _ ih => rw [joint.columnsAmong_cons, ih]
  | condition c _ ih => rw [columnsAmong_append, columnsAmong_condition, ih, List.map_cons]; rfl

namespace Tree

mutual

lemma columnLabels_eq : ∀ tree : Tree, tree.columnLabels = tree.conditions.map (·.columnLabel)
  | .chain _ children => by
    rw [columnLabels, conditions]
    exact allColumnLabels_eq children
  | .condition c => by
    rw [columnLabels, conditions]
    rfl

lemma allColumnLabels_eq : ∀ children : List Tree,
    allColumnLabels children = (allConditions children).map (·.columnLabel)
  | [] => by
    rw [allColumnLabels, allConditions]
    rfl
  | child :: rest => by
    rw [allColumnLabels, allConditions, columnLabels_eq child, allColumnLabels_eq rest,
      List.map_append]

end

/-- The columns among the terms of a chain are those that its tree is walked for. -/
lemma columnsAmong_chain (form : Form) (connective : Connective) (children : List Tree) :
    columnsAmong (chainTerms form connective children) = (chain connective children).columnLabels := by
  rw [(recital_chain connective children).columnsAmong, columnLabels_eq, conditions]

mutual

lemma length_columns_member : ∀ tree : Tree, tree.isEmpty = false →
    (columnsAmong (tree.memberTerms form)).length = joinersAmong (tree.memberTerms form) + 1
  | .chain connective children => by
    intro nonempty
    rw [isEmpty] at nonempty
    have inner := length_columns_chain connective children nonempty
    -- Parentheses are neither columns nor logical operators.
    have columns : ∀ ts, columnsAmong (Term.groupOpen :: (ts ++ [Term.groupClose])) =
        columnsAmong ts := fun ts => by
      rw [Term.Joint.opening.columnsAmong_cons, columnsAmong_append]
      exact List.append_nil _
    have joiners : ∀ ts, joinersAmong (Term.groupOpen :: (ts ++ [Term.groupClose])) =
        joinersAmong ts := fun _ => joinersAmong_append
    rw [memberTerms_chain, columns, joiners]
    exact inner
  | .condition c => by
    intro _
    rw [memberTerms_condition, columnsAmong_condition, joinersAmong_condition]
    rfl

/-- A chain that holds a condition has one column more than logical operators. -/
lemma length_columns_chain (connective : Connective) : ∀ children : List Tree,
    allEmpty children = false →
      (columnsAmong (chainTerms form connective children)).length =
        joinersAmong (chainTerms form connective children) + 1
  | [] => by
    intro nonempty
    rw [allEmpty] at nonempty
    cases nonempty
  | child :: rest => by
    intro nonempty
    rw [allEmpty] at nonempty
    cases empty : child.isEmpty with
    | true =>
      rw [empty, Bool.true_and] at nonempty
      rw [chainTerms_skip empty]
      exact length_columns_chain connective rest nonempty
    | false =>
      have first := length_columns_member child empty
      cases more : allEmpty rest with
      | true =>
        rw [chainTerms_last empty more]
        exact first
      | false =>
        -- The connective between the first member and the others makes up for the second one.
        have others := length_columns_chain connective rest more
        have joined : ∀ ts, joinersAmong (connective.term :: ts) = joinersAmong ts + 1 := fun _ =>
          List.countP_cons_of_pos rfl
        rw [chainTerms_more empty more, columnsAmong_append, joinersAmong_append, joined,
          (Term.Joint.joining connective).columnsAmong_cons, List.length_append, first, others]
        omega

end

/-- The columns that the walk over a chain finds are those among its terms, in full and in compact form;
the first entry of a list that searches with the chain names them, unless the entry is left out; and if the
chain holds a condition, its terms have one logical operator fewer in either form. -/
theorem columns_in_step (connective : Connective) (children : List Tree) :
    columnsAmong (chainTerms .full connective children) = (chain connective children).columnLabels ∧
      columnsAmong (chain connective children).terms = (chain connective children).columnLabels ∧
      (∀ (q : SuggestionQuery) (search : Text),
        q.default = some (search, .chain connective children) →
          (SuggestionList.assemble q).default =
            if SuggestionList.isSettled q.typed (SuggestionList.assemble q).entries then none
            else
              some
                { search
                  kind := none
                  terms := chainTerms .full connective children
                  columns := (chain connective children).columnLabels }) ∧
      ((chain connective children).isEmpty = false → ∀ form,
        (chain connective children).columnLabels.length =
          joinersAmong (chainTerms form connective children) + 1) := by
  refine ⟨columnsAmong_chain .full connective children, columnsAmong_chain .compact connective children,
    ?_, ?_⟩
  · intro q search given
    have named : (DefaultEntry.ofKind search q.kind (.chain connective children)).columns =
        (chain connective children).columnLabels := columnsAmong_chain .full connective children
    rw [← named]
    simp only [SuggestionList.assemble, given]
    split <;> rfl
  · intro nonempty form
    rw [isEmpty] at nonempty
    rw [← columnsAmong_chain form]
    exact length_columns_chain connective children nonempty

/-- The column of a flag that is written alone, and columns behind members without a condition. -/
theorem columns_in_step_nested :
    let children := [chain .any [], condition ⟨['a'], ['='], .flag true, some ['A']⟩,
      chain .any [condition ⟨['b'], ['='], .text ['v'], none⟩, chain .all [chain .any []],
        condition ⟨['c'], ['<'], .flag true, none⟩]]
    let q : SuggestionQuery :=
      { typed := some ['x'], candidates := [.plain ['x', 'y']]
        default := some (['x'], .chain .all children) }
    (chain .all children).isEmpty = false ∧ q.default = some (['x'], .chain .all children) ∧
      (SuggestionList.assemble q).default.map (·.columns) = some [['A'], ['b'], ['c']] ∧
      (chain .all children).columnLabels.length =
        joinersAmong (chain .all children).terms + 1 := by
  intro children q
  obtain ⟨_, _, listed, joined⟩ := columns_in_step .all children
  have entry := listed q ['x'] rfl
  refine ⟨rfl, rfl, ?_, joined rfl .compact⟩
  rw [entry]
  rfl

end Tree
end FilterEditor
