import FilterEditor.Tree.Flatten
import Mathlib.Tactic.Common

/-!
# Terms of filters

Flattening, equation by equation: what an empty member, the last member and any other member add to the
terms of a chain. An induction over filters uses these equations and never unfolds the definitions.

What holds of every term that flattening can produce comes from `Pervasive`, which reduces it to
parentheses, connectives and the terms of single conditions; in particular every term of a filter has
a kind.
-/

namespace FilterEditor

/-- What holds of the separator and of the parts holds of what they are joined to. -/
lemma forall_mem_intercalate {α : Type} {P : α → Prop} {separator : List α}
    {parts : List (List α)} (hs : ∀ x ∈ separator, P x) (hp : ∀ part ∈ parts, ∀ x ∈ part, P x) :
    ∀ x ∈ List.intercalate separator parts, P x := by
  induction parts with
  | nil => nofun
  | cons part rest ih =>
    have first : ∀ x ∈ part, P x := hp part List.mem_cons_self
    have ih := ih fun p h => hp p (List.mem_cons_of_mem _ h)
    cases rest with
    | nil =>
      rw [List.intercalate_singleton]
      exact first
    | cons next rest =>
      rw [List.intercalate_cons_cons]
      intro x hx
      rcases List.mem_append.mp hx with hx | hx
      · rcases List.mem_append.mp hx with hx | hx
        · exact first x hx
        · exact hs x hx
      · exact ih x hx

/-- A property of parentheses, connectives and the terms of every condition. -/
structure Pervasive (form : Form) (P : Term → Prop) : Prop where
  opening : P Term.groupOpen
  closing : P Term.groupClose
  joining : ∀ c : Connective, P c.term
  condition : ∀ c : Condition, ∀ t ∈ c.terms form, P t

/-! ## Conditions -/

namespace Condition

variable {form : Form} {t : Term}

lemma terms_full (c : Condition) :
    c.terms .full = [(Term.column c.column).withLabel c.columnLabel, Term.operator c.sign,
      Term.value c.value.toText] := by
  simp [terms]

/-- A condition is its column alone or three terms. -/
lemma terms_cases (form : Form) (c : Condition) :
    c.terms form = [(Term.column c.column).withLabel c.columnLabel] ∨
      c.terms form = [(Term.column c.column).withLabel c.columnLabel, Term.operator c.sign,
        Term.value c.value.toText] := by
  unfold terms
  dsimp only
  split
  · exact .inl rfl
  · exact .inr rfl

/-- A term of a condition is its sign or free text. -/
lemma sort_of_mem_terms {c : Condition} (part : t ∈ c.terms form) :
    t.kind = some .column ∨ t.kind = some .value ∨ t = Term.operator c.sign := by
  rcases c.terms_cases form with eq | eq <;> rw [eq] at part
  · cases List.mem_singleton.mp part
    exact .inl rfl
  · simp only [List.mem_cons, List.not_mem_nil, or_false] at part
    rcases part with rfl | rfl | rfl
    · exact .inl rfl
    · exact .inr (.inr rfl)
    · exact .inr (.inl rfl)

lemma kind_of_mem_terms {c : Condition} (part : t ∈ c.terms form) :
    t.kind = some .column ∨ t.kind = some .operator ∨ t.kind = some .value := by
  rcases sort_of_mem_terms part with column | value | rfl
  · exact .inl column
  · exact .inr (.inr value)
  · exact .inr (.inl rfl)

end Condition

namespace Tree

/-! ## Chains -/

section

variable {form : Form} {connective : Connective} {child : Tree} {children rest : List Tree}

lemma memberTerms_chain :
    (chain connective children).memberTerms form =
      Term.groupOpen :: (chainTerms form connective children ++ [Term.groupClose]) := by
  rw [memberTerms, chainTerms]

lemma memberTerms_condition (c : Condition) : (condition c).memberTerms form = c.terms form := by
  rw [memberTerms]

lemma members_skip (empty : child.isEmpty) :
    members form (child :: rest) = members form rest := by
  rw [members, if_pos empty]

lemma members_keep (some : child.isEmpty = false) :
    members form (child :: rest) = child.memberTerms form :: members form rest := by
  rw [members, some]
  rfl

lemma members_eq_nil_iff : members form children = [] ↔ allEmpty children := by
  induction children with
  | nil => simp [members, allEmpty]
  | cons child rest ih =>
    cases empty : child.isEmpty with
    | true => rw [members_skip empty, allEmpty, empty, Bool.true_and, ih]
    | false => simp [members_keep empty, allEmpty, empty]

lemma chainTerms_nil : chainTerms form connective [] = [] := by
  rw [chainTerms, members]
  rfl

/-- An empty member leaves no trace. -/
lemma chainTerms_skip (empty : child.isEmpty) :
    chainTerms form connective (child :: rest) = chainTerms form connective rest := by
  rw [chainTerms, chainTerms, members_skip empty]

/-- Nothing stands behind the last member. -/
lemma chainTerms_last (some : child.isEmpty = false) (last : allEmpty rest) :
    chainTerms form connective (child :: rest) = child.memberTerms form := by
  rw [chainTerms, members_keep some, members_eq_nil_iff.mpr last, List.intercalate_singleton]

/-- Behind a member that is not the last one stands the connective. -/
lemma chainTerms_more (some : child.isEmpty = false) (more : allEmpty rest = false) :
    chainTerms form connective (child :: rest) =
      child.memberTerms form ++ connective.term :: chainTerms form connective rest := by
  cases later : members form rest with
  | nil => simp [members_eq_nil_iff.mp later] at more
  | cons next parts =>
    rw [chainTerms, chainTerms, members_keep some, later, List.intercalate_cons_cons,
      List.append_assoc, List.singleton_append]

end

/-! ## Every term -/

variable {form : Form} {P : Term → Prop}

mutual

lemma forall_mem_memberTerms (h : Pervasive form P) :
    ∀ tree : Tree, ∀ t ∈ tree.memberTerms form, P t
  | .chain connective children => by
    have inner : ∀ t ∈ List.intercalate [connective.term] (members form children), P t := by
      apply forall_mem_intercalate
      · intro t ht
        cases List.mem_singleton.mp ht
        exact h.joining connective
      · exact forall_mem_members h children
    intro t ht
    rw [memberTerms] at ht
    rcases List.mem_cons.mp ht with rfl | ht
    · exact h.opening
    · rcases List.mem_append.mp ht with ht | ht
      · exact inner t ht
      · cases List.mem_singleton.mp ht
        exact h.closing
  | .condition c => by
    intro t ht
    rw [memberTerms] at ht
    exact h.condition c t ht

lemma forall_mem_members (h : Pervasive form P) :
    ∀ trees : List Tree, ∀ part ∈ members form trees, ∀ t ∈ part, P t
  | [] => by
    intro part hp
    rw [members] at hp
    cases hp
  | child :: children => by
    have rest := forall_mem_members h children
    intro part hp
    rw [members] at hp
    split at hp
    · exact rest part hp
    · rcases List.mem_cons.mp hp with rfl | hp
      · exact forall_mem_memberTerms h child
      · exact rest part hp

end

lemma forall_mem_chainTerms (h : Pervasive form P) (connective : Connective)
    (children : List Tree) : ∀ t ∈ chainTerms form connective children, P t := by
  apply forall_mem_intercalate
  · intro t ht
    cases List.mem_singleton.mp ht
    exact h.joining connective
  · exact forall_mem_members h children

/-- A pervasive property holds of every term of a filter. -/
lemma forall_mem_terms (h : Pervasive .compact P) (tree : Tree) : ∀ t ∈ tree.terms, P t := by
  cases tree with
  | chain connective children => exact forall_mem_chainTerms h connective children
  | condition c => exact h.condition c

lemma kind_pervasive (form : Form) : Pervasive form fun t => t.kind.isSome where
  opening := rfl
  closing := rfl
  joining := fun _ => rfl
  condition := by
    intro c t ht
    rcases Condition.kind_of_mem_terms ht with kind | kind | kind <;> rw [kind] <;> rfl

end Tree
end FilterEditor
