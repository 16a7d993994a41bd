import FilterEditor.Grammar
import Mathlib.Data.List.Infix
import Mathlib.Tactic.Common

/-!
# Tokens of the filter grammar

What the filter grammar offers to a slot, kind by kind. Everything it offers is one of the fixed
tokens, but for a slot between parentheses, which may repeat the parenthesis before it; so every
token that typing can complete has a kind.
-/

namespace FilterEditor

/-- The fixed tokens: parentheses, logical and relational operators. -/
def Term.tokens : List Term := groupOpen :: joiners ++ relationalOperators

namespace Grammar

lemma tokens_of_relational {t : Term} (h : t ∈ Term.relationalOperators) : t ∈ Term.tokens :=
  List.mem_append_right _ h

lemma tokens_of_joiner {t : Term} (h : t ∈ joiners) : t ∈ Term.tokens :=
  List.mem_append_left _ (List.mem_cons_of_mem _ h)

lemma tokens_of_groupOpen : Term.groupOpen ∈ Term.tokens := List.mem_cons_self

lemma kind_of_mem_tokens : ∀ t ∈ Term.tokens, t.kind.isSome := by decide

lemma relational_of_extending {typed : Text} {t : Term} (h : t ∈ extendingOperators typed) :
    t ∈ Term.relationalOperators := by
  unfold extendingOperators at h
  split at h
  · cases h
  · exact (List.mem_filter.mp h).1

/-- Three texts begin longer operators. -/
lemma extendingOperators_ne_nil_iff {typed : Text} :
    extendingOperators typed ≠ [] ↔ typed ∈ ["!".toList, "<".toList, ">".toList] := by
  constructor
  · have starts : ∀ t ∈ Term.relationalOperators, ∀ start ∈ t.label.inits,
        start ≠ [] → start.length < t.label.length →
          start ∈ ["!".toList, "<".toList, ">".toList] := by
      decide
    intro longer
    unfold extendingOperators at longer
    split at longer
    · exact (longer rfl).elim
    · rename_i nonempty
      obtain ⟨t, ht⟩ := List.exists_mem_of_ne_nil _ longer
      obtain ⟨operator, begins⟩ := List.mem_filter.mp ht
      obtain ⟨start, longer⟩ := Bool.and_eq_true_iff.mp begins
      have start : typed ∈ t.label.inits :=
        (List.mem_inits _ _).mpr (List.isPrefixOf_iff_prefix.mp start)
      exact starts t operator typed start (fun none => nonempty (List.isEmpty_iff.mpr none))
        (of_decide_eq_true longer)
  · have begins : ∀ typed ∈ ["!".toList, "<".toList, ">".toList], extendingOperators typed ≠ [] := by
      decide
    exact begins typed

lemma mem_operatorsAndJoiners {typed : Text} {t : Term}
    (h : t ∈ (operatorsAndJoiners typed).terms) : t ∈ Term.relationalOperators ∨ t ∈ joiners := by
  unfold operatorsAndJoiners at h
  split at h
  · exact List.mem_append.mp h
  · rcases List.mem_append.mp h with h | h
    · exact .inl (relational_of_extending h)
    · exact .inr h

lemma tokens_of_mem_operatorsAndJoiners {typed : Text} {t : Term}
    (h : t ∈ (operatorsAndJoiners typed).terms) : t ∈ Term.tokens := by
  rcases mem_operatorsAndJoiners h with operator | joiner
  · exact tokens_of_relational operator
  · exact tokens_of_joiner joiner

/-- What is offered is a token, or the parenthesis before a slot between parentheses. -/
lemma mem_offered {typed : Text} {expected : Option Kind} {context : Context} {t : Term}
    (h : t ∈ (offered typed expected context).terms) :
    t ∈ Term.tokens ∨
      expected = some .groupingOperator ∧ context.preceding = some t ∧
        t.kind = some .groupingOperator := by
  unfold offered at h
  -- By the expected kind: none, a column, an operator, a value, a connective or a parenthesis.
  split at h
  · cases h
  · left
    split at h
    · split at h
      · cases List.mem_singleton.mp h
        exact tokens_of_groupOpen
      · split at h
        · cases List.mem_singleton.mp h
          exact tokens_of_groupOpen
        · cases h
    · exact tokens_of_mem_operatorsAndJoiners h
  · exact .inl (tokens_of_mem_operatorsAndJoiners h)
  · exact .inl (tokens_of_joiner h)
  · exact .inl (tokens_of_joiner h)
  · split at h
    · cases h
    · rename_i preceding hp
      simp only [groupingAfter] at h
      split at h
      case h_5 hk =>
        cases List.mem_singleton.mp h
        exact .inr ⟨rfl, hp, hk⟩
      case h_6 => cases h
      case h_4 =>
        cases List.mem_singleton.mp h
        exact .inl tokens_of_groupOpen
      all_goals
        cases List.mem_singleton.mp h
        exact .inl (tokens_of_joiner List.mem_cons_self)

lemma mem_offered_of_continuations {g : Grammar} {typed : Text} {expected : Option Kind}
    {context : Context} {t : Term} (h : t ∈ (g.continuations typed expected context).terms) :
    t ∈ (offered typed expected context).terms := by
  unfold continuations at h
  split at h
  · cases h
  · dsimp only at h
    split at h
    · exact h
    · split at h
      · rename_i found
        cases List.mem_singleton.mp h
        exact List.mem_of_find?_eq_some found
      · exact h

lemma mem_of_exactMatch {c : Continuations} {text : Text} {t : Term}
    (h : c.exactMatch? text = some t) : t ∈ c.terms ∧ t.label = text := by
  unfold Continuations.exactMatch? at h
  split at h
  · rename_i only eq
    split at h
    · rename_i hl
      cases h
      rw [eq]
      exact ⟨List.mem_singleton.mpr rfl, hl⟩
    · cases h
  · cases h

lemma kind_of_exactMatch {g : Grammar} {typed text : Text} {expected : Option Kind}
    {context : Context} {t : Term}
    (h : (g.continuations typed expected context).exactMatch? text = some t) :
    t.kind.isSome := by
  rcases mem_offered (mem_offered_of_continuations (mem_of_exactMatch h).1) with ht | ⟨_, _, hk⟩
  · exact kind_of_mem_tokens t ht
  · rw [hk]
    rfl

/-- A joiner is singled out behind a pending column, where a value is expected and behind a whole
condition. -/
lemma continuations_joiner {t : Term} (ht : t ∈ joiners) {expected : Option Kind}
    {context : Context}
    (whole : expected = some .column ∧ context.pending ≠ [] ∨ expected = some .value ∨
      expected = some .logicalOperator) :
    filter.continuations t.label expected context = ⟨[t], false⟩ := by
  have nonempty : t.label.isEmpty = false :=
    (by decide : ∀ t ∈ joiners, t.label.isEmpty = false) t ht
  have found : joiners.find? (·.label = t.label) = some t :=
    (by decide : ∀ t ∈ joiners, joiners.find? (·.label = t.label) = some t) t ht
  have foundAmong : (Term.relationalOperators ++ joiners).find? (·.label = t.label) = some t :=
    (by decide : ∀ t ∈ joiners, (Term.relationalOperators ++ joiners).find? (·.label = t.label) =
      some t) t ht
  have whole_operators : operatorsAndJoiners t.label =
      ⟨Term.relationalOperators ++ joiners, false⟩ :=
    (by decide : ∀ t ∈ joiners, operatorsAndJoiners t.label =
      ⟨Term.relationalOperators ++ joiners, false⟩) t ht
  rcases whole with ⟨rfl, pending⟩ | rfl | rfl
  · have offered : offered t.label (some .column) context =
        ⟨Term.relationalOperators ++ joiners, false⟩ := by
      simp [Grammar.offered, pending, whole_operators]
    simp only [continuations, offered, foundAmong, nonempty, Bool.or_self, Bool.false_eq_true,
      if_false]
  · simp only [continuations, offered, found, nonempty, Bool.or_self, Bool.false_eq_true, if_false]
  · simp only [continuations, offered, found, nonempty, Bool.or_self, Bool.false_eq_true, if_false]

end Grammar
end FilterEditor
