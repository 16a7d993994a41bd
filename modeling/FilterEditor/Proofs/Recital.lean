import FilterEditor.Proofs.Spelling

/-!
# Recitals

The terms of a filter name its conditions one after the other, with parentheses and connectives before,
between and behind them: they are a `Recital` of its conditions. The tree is gone in a recital, so what
holds of every position of a filter is shown by induction along its terms. In particular every condition
has its place among them (`Stands`), and the value that stands at an index is the third term of the
condition that stands two places before.
-/

namespace FilterEditor

/-- A term that belongs to no condition. -/
inductive Term.Joint : Term → Prop
  | opening : Joint groupOpen
  | closing : Joint groupClose
  | joining (c : Connective) : Joint c.term

/-- Terms that name conditions in order. -/
inductive Recital (form : Form) : List Condition → List Term → Prop
  | nil : Recital form [] []
  | joint {cs : List Condition} {ts : List Term} {t : Term} (joint : t.Joint)
      (rest : Recital form cs ts) : Recital form cs (t :: ts)
  | condition {cs : List Condition} {ts : List Term} (c : Condition) (rest : Recital form cs ts) :
      Recital form (c :: cs) (c.terms form ++ ts)

/-- A condition stands at a place among terms: the terms before it name the conditions before it, and
those behind it the conditions behind it. -/
def Stands (form : Form) (cs : List Condition) (ts : List Term) (c : Condition) (place : Nat) : Prop :=
  ∃ before behind first rest, cs = before ++ c :: behind ∧ ts = first ++ (c.terms form ++ rest) ∧
    Recital form before first ∧ Recital form behind rest ∧ first.length = place

variable {form : Form} {cs cs' : List Condition} {ts ts' : List Term} {c : Condition} {t : Term}
  {place index : Nat}

lemma Term.Joint.kind_ne_value (h : t.Joint) : t.kind ≠ some .value := by
  cases h <;> nofun

namespace Recital

lemma append (h : Recital form cs ts) (h' : Recital form cs' ts') :
    Recital form (cs ++ cs') (ts ++ ts') := by
  induction h with
  | nil => exact h'
  | joint joint _ ih => exact .joint joint ih
  | condition c _ ih =>
    rw [List.append_assoc]
    exact .condition c ih

lemma single (c : Condition) : Recital form [c] (c.terms form) := by
  have alone : Recital form [c] (c.terms form ++ []) := .condition c .nil
  rwa [List.append_nil] at alone

lemma group (h : Recital form cs ts) :
    Recital form cs (Term.groupOpen :: (ts ++ [Term.groupClose])) := by
  have closed := h.append (.joint .closing .nil)
  rw [List.append_nil] at closed
  exact .joint .opening closed

lemma join (h : Recital form cs ts) (connective : Connective) (h' : Recital form cs' ts') :
    Recital form (cs ++ cs') (ts ++ connective.term :: ts') :=
  h.append (.joint (.joining connective) h')

end Recital

namespace Tree

mutual

lemma recital_member : ∀ tree : Tree, Recital form tree.conditions (tree.memberTerms form)
  | .chain connective children => by
    rw [memberTerms_chain, conditions]
    exact (recital_chain connective children).group
  | .condition c => by
    rw [memberTerms_condition, conditions]
    exact .single c

/-- The terms of a chain recite its conditions. -/
lemma recital_chain (connective : Connective) : ∀ children : List Tree,
    Recital form (allConditions children) (chainTerms form connective children)
  | [] => by
    rw [chainTerms_nil, allConditions]
    exact .nil
  | child :: rest => by
    have first := recital_member child
    have later := recital_chain connective rest
    rw [allConditions]
    cases empty : child.isEmpty with
    | true =>
      rw [chainTerms_skip empty, conditions_of_isEmpty child empty]
      exact later
    | false =>
      cases more : allEmpty rest with
      | true =>
        rw [chainTerms_last empty more, allConditions_of_allEmpty rest more, List.append_nil]
        exact first
      | false =>
        rw [chainTerms_more empty more]
        exact first.join connective later

end

lemma recital_terms (tree : Tree) : Recital .compact tree.conditions tree.terms := by
  cases tree with
  | chain connective children =>
    rw [conditions]
    exact recital_chain connective children
  | condition c =>
    rw [conditions]
    exact .single c

end Tree

/-! ## Places -/

namespace Stands

lemma head (h : Recital form cs ts) (c : Condition) :
    Stands form (c :: cs) (c.terms form ++ ts) c 0 :=
  ⟨[], cs, [], ts, rfl, rfl, .nil, h, rfl⟩

lemma joint (joint : t.Joint) (h : Stands form cs ts c place) :
    Stands form cs (t :: ts) c (place + 1) := by
  obtain ⟨before, behind, first, rest, rfl, rfl, recited, later, rfl⟩ := h
  exact ⟨before, behind, t :: first, rest, rfl, rfl, .joint joint recited, later, rfl⟩

lemma condition (c' : Condition) (h : Stands form cs ts c place) :
    Stands form (c' :: cs) (c'.terms form ++ ts) c ((c'.terms form).length + place) := by
  obtain ⟨before, behind, first, rest, rfl, rfl, recited, later, rfl⟩ := h
  refine ⟨c' :: before, behind, c'.terms form ++ first, rest, rfl, ?_, .condition c' recited, later,
    List.length_append⟩
  rw [List.append_assoc]

/-- The terms of a condition are found at its place. -/
lemma getElem? (h : Stands form cs ts c place) {offset : Nat}
    (found : (c.terms form)[offset]? = some t) : ts[place + offset]? = some t := by
  obtain ⟨_, _, first, rest, _, rfl, _, _, rfl⟩ := h
  have within : offset < (c.terms form).length := (List.getElem?_eq_some_iff.mp found).1
  rw [List.getElem?_append_right (Nat.le_add_right _ _), Nat.add_sub_cancel_left,
    List.getElem?_append_left within]
  exact found

end Stands

/-- A value is the third term of a condition that stands two places before it. -/
lemma Recital.value (h : Recital form cs ts) (held : ts[index]? = some t)
    (value : t.kind = some .value) :
    ∃ c place, Stands form cs ts c place ∧ index = place + 2 ∧
      c.terms form = [(Term.column c.column).withLabel c.columnLabel, Term.operator c.sign, t] := by
  induction h generalizing index with
  | nil => cases held
  | joint joint _ ih =>
    cases index with
    | zero =>
      cases held
      exact (joint.kind_ne_value value).elim
    | succ index =>
      obtain ⟨c, place, stands, rfl, terms⟩ := ih held
      exact ⟨c, place + 1, stands.joint joint, rfl, terms⟩
  | @condition cs ts c rest ih =>
    by_cases within : index < (c.terms form).length
    · -- Of the terms of a single condition, the value is the third.
      rw [List.getElem?_append_left within] at held
      have head := Stands.head rest c
      rcases c.terms_cases form with eq | eq <;> rw [eq] at held
      · match index, held with
        | 0, held => cases held; cases value
      · match index, held with
        | 0, held => cases held; cases value
        | 1, held => cases held; cases value
        | 2, held =>
          cases held
          exact ⟨c, 0, head, rfl, eq⟩
    · obtain ⟨c', place, stands, eq, terms⟩ :=
        ih (by rwa [List.getElem?_append_right (Nat.le_of_not_lt within)] at held)
      refine ⟨c', _, stands.condition c, ?_, terms⟩
      omega

end FilterEditor
