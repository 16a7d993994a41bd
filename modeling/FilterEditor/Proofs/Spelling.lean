import FilterEditor.Proofs.Flatten

/-!
# Columns that stand alone

The compact terms of a filter write a condition with the operand `true` as its column alone. Reading
them back, a column alone says that the column equals one. `spellOut` writes this down;
`spellOut_terms_iff` says for which filters it gives the full terms: the sign of a condition with the
operand `true` has to be the equals sign, any other sign is lost.
-/

namespace FilterEditor

/-- Whether a term is a column without an operator behind it. -/
def standsAlone (t : Term) (rest : List Term) : Bool :=
  t.hasKind .column && !rest.head?.any (·.hasKind .operator)

/-- The terms with `= 1` behind each column that stands alone. -/
def spellOut : List Term → List Term
  | [] => []
  | t :: rest =>
    if standsAlone t rest then t :: Term.operator ['='] :: Term.value ['1'] :: spellOut rest
    else t :: spellOut rest

namespace Tree

mutual

/-- The conditions of a filter, from left to right. -/
def conditions : Tree → List Condition
  | .chain _ children => allConditions children
  | .condition c => [c]

def allConditions : List Tree → List Condition
  | [] => []
  | child :: children => child.conditions ++ allConditions children

end

mutual

lemma conditions_of_isEmpty : ∀ tree : Tree, tree.isEmpty → tree.conditions = []
  | .chain _ children => by
    intro empty
    rw [conditions]
    rw [isEmpty] at empty
    exact allConditions_of_allEmpty children empty
  | .condition c => by
    intro empty
    rw [isEmpty] at empty
    cases empty

lemma allConditions_of_allEmpty : ∀ children : List Tree, allEmpty children →
    allConditions children = []
  | [] => fun _ => by rw [allConditions]
  | child :: rest => by
    intro empty
    rw [allEmpty, Bool.and_eq_true] at empty
    rw [allConditions, conditions_of_isEmpty child empty.1, allConditions_of_allEmpty rest empty.2]
    rfl

end

end Tree

/-- A condition whose sign is not lost when its column stands alone. -/
def Condition.Recoverable (c : Condition) : Prop := c.value = .flag true → c.sign = ['=']

variable {t : Term} {as bs as' bs' : List Term}

/-! ## Spelling out -/

lemma spellOut_cons (other : t.hasKind .column = false) : spellOut (t :: as) = t :: spellOut as := by
  rw [spellOut, standsAlone, other]
  rfl

/-- What is spelled out in front does not depend on what follows, unless that starts with an
operator. -/
lemma spellOut_append (ends : bs.head?.any (·.hasKind .operator) = false) :
    spellOut (as ++ bs) = spellOut as ++ spellOut bs := by
  induction as with
  | nil => rfl
  | cons t rest ih =>
    have alone : standsAlone t (rest ++ bs) = standsAlone t rest := by
      cases rest with
      | nil => simp [standsAlone, ends]
      | cons => rfl
    rw [List.cons_append, spellOut, spellOut, alone, ih]
    split <;> rfl

/-! ## Agreement -/

/-- Lists of one length that are equal just under a condition. -/
structure AgreeIff (as bs : List Term) (P : Prop) : Prop where
  length : as.length = bs.length
  eq_iff : as = bs ↔ P

lemma AgreeIff.refl (as : List Term) : AgreeIff as as True := ⟨rfl, iff_of_true rfl trivial⟩

lemma AgreeIff.append {P Q : Prop} (first : AgreeIff as bs P) (rest : AgreeIff as' bs' Q) :
    AgreeIff (as ++ as') (bs ++ bs') (P ∧ Q) where
  length := by rw [List.length_append, List.length_append, first.length, rest.length]
  eq_iff := by
    rw [List.append_eq_append_iff_of_size_eq_left first.length, first.eq_iff, rest.eq_iff]

lemma AgreeIff.congr {P Q : Prop} (h : AgreeIff as bs P) (same : P ↔ Q) : AgreeIff as bs Q :=
  ⟨h.length, h.eq_iff.trans same⟩

lemma agree_condition (c : Condition) :
    AgreeIff (spellOut (c.terms .compact)) (c.terms .full) c.Recoverable := by
  by_cases flag : c.value = .flag true
  · have alone : c.terms .compact = [(Term.column c.column).withLabel c.columnLabel] := by
      simp [Condition.terms, flag]
    have spelled : spellOut [(Term.column c.column).withLabel c.columnLabel] =
        [(Term.column c.column).withLabel c.columnLabel, Term.operator ['='], Term.value ['1']] :=
      rfl
    have full : c.terms .full = [(Term.column c.column).withLabel c.columnLabel,
        Term.operator c.sign, Term.value ['1']] := by
      rw [Condition.terms_full, flag]
      rfl
    rw [alone, spelled, full]
    refine ⟨rfl, ⟨fun eq _ => ?_, fun keeps => ?_⟩⟩
    · simp only [List.cons.injEq, Term.operator, Term.token, Term.mk.injEq, true_and,
        and_true] at eq
      exact eq.1.symm
    · rw [keeps flag]
  · have same : c.terms .compact = c.terms .full := by simp [Condition.terms, flag]
    have spelled : spellOut (c.terms .full) = c.terms .full := rfl
    rw [same, spelled]
    exact ⟨rfl, iff_of_true rfl fun h => (flag h).elim⟩

namespace Tree

mutual

lemma agree_member : ∀ tree : Tree,
    AgreeIff (spellOut (tree.memberTerms .compact)) (tree.memberTerms .full)
      (∀ c ∈ tree.conditions, c.Recoverable)
  | .chain connective children => by
    have inner := agree_chain connective children
    have group := ((AgreeIff.refl [Term.groupOpen]).append inner).append
      (AgreeIff.refl [Term.groupClose])
    have closing : spellOut [Term.groupClose] = [Term.groupClose] := rfl
    rw [memberTerms_chain, memberTerms_chain, spellOut_cons rfl, spellOut_append rfl, closing,
      conditions]
    exact group.congr (by simp)
  | .condition c => by
    rw [memberTerms_condition, memberTerms_condition, conditions]
    exact (agree_condition c).congr (by simp)

/-- Spelled out, the compact terms of a chain are the full ones just if no sign is lost. -/
lemma agree_chain (connective : Connective) : ∀ children : List Tree,
    AgreeIff (spellOut (chainTerms .compact connective children))
      (chainTerms .full connective children) (∀ c ∈ allConditions children, c.Recoverable)
  | [] => by
    rw [chainTerms_nil, chainTerms_nil, allConditions]
    exact ⟨rfl, iff_of_true rfl nofun⟩
  | child :: rest => by
    rw [allConditions]
    cases empty : child.isEmpty with
    | true =>
      rw [chainTerms_skip empty, chainTerms_skip empty, conditions_of_isEmpty child empty]
      exact agree_chain connective rest
    | false =>
      have first := agree_member child
      cases more : allEmpty rest with
      | true =>
        rw [chainTerms_last empty more, chainTerms_last empty more,
          allConditions_of_allEmpty rest more, List.append_nil]
        exact first
      | false =>
        -- The connective is neither a column nor an operator, so both sides are split there.
        have joined := first.append ((AgreeIff.refl [connective.term]).append
          (agree_chain connective rest))
        rw [chainTerms_more empty more, chainTerms_more empty more, spellOut_append rfl,
          spellOut_cons rfl]
        exact joined.congr (by rw [List.forall_mem_append, true_and])

end

/-- Spelling out the columns that stand alone turns the compact terms of a chain into its full ones
just if every condition with the operand `true` has the equals sign. -/
theorem spellOut_terms_iff (connective : Connective) (children : List Tree) :
    spellOut (chain connective children).terms = chainTerms .full connective children ↔
      ∀ c ∈ (chain connective children).conditions, c.value = .flag true → c.sign = ['='] := by
  rw [terms, conditions]
  exact (agree_chain connective children).eq_iff

/-- A condition that denies a flag is spelled out as one that asserts it. -/
theorem spellOut_terms_denied :
    let denied : Condition := ⟨"problem", ['!', '='], .flag true, none⟩
    spellOut (chain .all [.condition denied]).terms ≠ chainTerms .full .all [.condition denied] ∧
    spellOut (chain .all [.condition denied]).terms =
        [Term.column "problem", Term.operator ['='], Term.value ['1']] ∧
      chainTerms .full .all [.condition denied] =
        [Term.column "problem", Term.operator ['!', '='], Term.value ['1']] := by
  decide

end Tree
end FilterEditor
