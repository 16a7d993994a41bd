import FilterEditor.Proofs.Flatten
import FilterEditor.Proofs.Word

/-!
# Phrases

Which terms may stand behind which others. A phrase is a list of terms that grows at its end, each term in
a role that fits the role of the term before it. The terms of a filter are a phrase if its texts are
words and no nested chain starts with another chain: a parenthesis right behind an opening one would
be taken for text.
-/

namespace FilterEditor

/-- What a term does in a phrase. -/
inductive Role where
  | column
  | operator
  | value
  | joiner
  | opening
  | closing

namespace Role

/-- Whether a condition may start behind a term of a role, or at the start. -/
def starts : Option Role → Bool
  | none | some joiner | some opening => true
  | _ => false

/-- Whether a chain may start behind a term of a role, or at the start. -/
def nests : Option Role → Bool
  | none | some joiner => true
  | _ => false

/-- Whether a filter may end with a term of a role. -/
def ends : Option Role → Bool
  | some column | some value | some closing => true
  | _ => false

/-- The kind of term that is expected behind a term of a role, or at the start. -/
def next : Option Role → Kind
  | none | some joiner | some opening => .column
  | some column => .operator
  | some operator => .value
  | some value | some closing => .logicalOperator

lemma starts_of_nests {r : Option Role} (h : nests r) : starts r := by
  cases r with
  | none => rfl
  | some r => cases r <;> first | rfl | cases h

end Role

/-- The signs that are complete once their last character is typed. -/
def completeSigns : List Text := [['='], ['!', '='], ['>', '='], ['<', '=']]

/-- A list of terms that may be typed, with the role of the last one. -/
inductive Phrase : Option Role → List Term → Prop
  | nil : Phrase none []
  | column {r : Option Role} {ts : List Term} {w : Text} (before : Phrase r ts)
      (starts : Role.starts r) (word : Word w) : Phrase (some .column) (ts ++ [Term.column w])
  | operator {ts : List Term} {sign : Text} (before : Phrase (some .column) ts)
      (complete : sign ∈ completeSigns) : Phrase (some .operator) (ts ++ [Term.operator sign])
  | value {ts : List Term} {w : Text} (before : Phrase (some .operator) ts) (word : Word w) :
      Phrase (some .value) (ts ++ [Term.value w])
  | joiner {r : Option Role} {ts : List Term} (before : Phrase r ts) (ends : Role.ends r)
      (c : Connective) : Phrase (some .joiner) (ts ++ [c.term])
  | opening {r : Option Role} {ts : List Term} (before : Phrase r ts) (nests : Role.nests r) :
      Phrase (some .opening) (ts ++ [Term.groupOpen])
  | closing {r : Option Role} {ts : List Term} (before : Phrase r ts) (ends : Role.ends r) :
      Phrase (some .closing) (ts ++ [Term.groupClose])

/-! ## Filters that can be typed -/

/-- A condition whose texts are words, under its own name and with a sign that is complete once it is
typed. -/
structure Condition.Typable (c : Condition) : Prop where
  column : Word c.column
  value : ∀ text, c.value = .text text → Word text
  label : c.label = none
  sign : c.sign ∈ completeSigns

namespace Tree

/-- Whether a filter is a single condition. -/
def isCondition : Tree → Bool
  | .condition _ => true
  | .chain _ _ => false

/-- Whether the first filter that is not empty, if any, is a condition. -/
def startsFlat (children : List Tree) : Bool := (children.find? (!·.isEmpty)).all isCondition

mutual

/-- A filter whose conditions can be typed and whose chains do not start with a chain. -/
def Nestable : Tree → Prop
  | .chain _ children => startsFlat children ∧ AllNestable children
  | .condition c => c.Typable

/-- Filters of that sort. -/
def AllNestable : List Tree → Prop
  | [] => True
  | child :: children => child.Nestable ∧ AllNestable children

end

/-- A filter that can be typed: the members of the outermost chain may be chains, also the first. -/
def Typable : Tree → Prop
  | .chain _ children => AllNestable children
  | .condition c => c.Typable

/-! ## Their terms -/

/-- The terms of a condition go on a phrase where a condition may start. -/
lemma phrase_condition {c : Condition} (h : c.Typable) {r : Option Role} {ts : List Term}
    (before : Phrase r ts) (starts : Role.starts r) :
    ∃ r', Role.ends r' ∧ Phrase r' (ts ++ c.terms .compact) := by
  have label : (Term.column c.column).withLabel c.columnLabel = Term.column c.column := by
    rw [Condition.columnLabel, h.label]
    rfl
  have column := before.column starts h.column
  rcases c.terms_cases .compact with eq | eq <;> rw [eq, label]
  · exact ⟨_, rfl, column⟩
  · have word : Word c.value.toText := by
      cases value : c.value with
      | flag b => cases b <;> exact Word.single rfl
      | text text => exact h.value text value
    have all := (column.operator h.sign).value word
    rw [List.append_assoc, List.append_assoc] at all
    exact ⟨_, rfl, all⟩

mutual

lemma phrase_member {r : Option Role} {ts : List Term} :
    ∀ tree : Tree, tree.Nestable → tree.isEmpty = false → Phrase r ts → Role.starts r →
      (tree.isCondition = false → Role.nests r) →
      ∃ r', Role.ends r' ∧ Phrase r' (ts ++ tree.memberTerms .compact)
  | .chain connective children => by
    intro nestable nonempty before _ nests
    rw [Nestable] at nestable
    have some : members .compact children ≠ [] := by
      intro none
      rw [isEmpty, members_eq_nil_iff.mp none] at nonempty
      cases nonempty
    -- Behind the parenthesis a condition may start but no chain, and no chain stands there.
    have flat : startsFlat children = false → Role.nests (Option.some .opening) := by
      rw [nestable.1]
      nofun
    obtain ⟨r', ends, inner⟩ := phrase_members connective children nestable.2 some
      (before.opening (nests rfl)) rfl flat
    have all := inner.closing ends
    rw [List.append_assoc, List.append_assoc] at all
    rw [memberTerms]
    exact ⟨_, rfl, all⟩
  | .condition c => by
    intro nestable _ before starts _
    rw [Nestable] at nestable
    rw [memberTerms]
    exact phrase_condition nestable before starts

/-- The terms of the members of a chain go on a phrase where the first of them may start. -/
lemma phrase_members {r : Option Role} {ts : List Term} (connective : Connective) :
    ∀ children : List Tree, AllNestable children → members .compact children ≠ [] → Phrase r ts →
      Role.starts r → (startsFlat children = false → Role.nests r) →
      ∃ r', Role.ends r' ∧
        Phrase r' (ts ++ List.intercalate [connective.term] (members .compact children))
  | [] => fun _ some => (some (by rw [members])).elim
  | child :: rest => by
    intro nestable some before starts flat
    rw [AllNestable] at nestable
    -- Empty members leave no terms, so the first member that counts may come later.
    cases empty : child.isEmpty with
    | true =>
      have skip : members .compact (child :: rest) = members .compact rest := members_skip empty
      have same : startsFlat (child :: rest) = startsFlat rest := by
        simp [startsFlat, empty]
      rw [skip] at some ⊢
      rw [same] at flat
      exact phrase_members connective rest nestable.2 some before starts flat
    | false =>
      have first : members .compact (child :: rest) =
          child.memberTerms .compact :: members .compact rest := members_keep empty
      have head : startsFlat (child :: rest) = child.isCondition := by
        simp [startsFlat, empty]
      rw [head] at flat
      obtain ⟨r', ends, member⟩ := phrase_member child nestable.1 empty before starts flat
      rw [first]
      cases later : members .compact rest with
      | nil =>
        rw [List.intercalate_singleton]
        exact ⟨r', ends, member⟩
      | cons next parts =>
        have some : members .compact rest ≠ [] := by rw [later]; nofun
        obtain ⟨r'', ends', all⟩ := phrase_members connective rest nestable.2 some
          (member.joiner ends connective) rfl fun _ => rfl
        rw [later, List.append_assoc, List.append_assoc] at all
        rw [List.intercalate_cons_cons, List.append_assoc]
        exact ⟨r'', ends', all⟩

end

/-- The terms of a filter that can be typed are a phrase that may end there. -/
lemma phrase_terms {tree : Tree} (h : tree.Typable) :
    ∃ r, (r = none ∨ Role.ends r) ∧ Phrase r tree.terms := by
  cases tree with
  | condition c =>
    obtain ⟨r, ends, phrase⟩ := phrase_condition h .nil rfl
    exact ⟨r, .inr ends, phrase⟩
  | chain connective children =>
    by_cases none : members .compact children = []
    · refine ⟨Option.none, .inl rfl, ?_⟩
      rw [terms, chainTerms, none]
      exact .nil
    · obtain ⟨r, ends, phrase⟩ := phrase_members connective children h none .nil rfl fun _ => rfl
      exact ⟨r, .inr ends, phrase⟩

end Tree
end FilterEditor
