import FilterEditor.Proofs.Phrase
import FilterEditor.Proofs.Reachable
import Mathlib.Data.List.Chain

/-!
# Sentences

What the terms of a filter look like as a sequence. A sentence is a condition, a sentence in
parentheses or two sentences with a connective between them; the terms of every filter that is not
empty are one, wherever empty chains stand in it. Sentences are grammatical: their parentheses match,
and every term fits the role of the one before it. So an editor knows from the last term of a filter
what to expect.
-/

namespace FilterEditor

/-- The role of a term: its kind and, for a parenthesis, its direction. -/
def Term.role? (t : Term) : Option Role :=
  match t.kind with
  | none => none
  | some .column => some .column
  | some .operator => some .operator
  | some .value => some .value
  | some .logicalOperator => some .joiner
  | some .groupingOperator => some (if t.isGroupOpen then .opening else .closing)

/-- Whether a term of the second role may stand right behind one of the first. -/
def Role.precedes : Role → Role → Bool
  | column, operator | operator, value => true
  | column, joiner | column, closing => true
  | value, joiner | value, closing => true
  | closing, joiner | closing, closing => true
  | joiner, column | joiner, opening => true
  | opening, column | opening, opening => true
  | _, _ => false

/-- Whether a sentence may start with a term of a role. -/
def Role.begins : Option Role → Bool
  | some column | some opening => true
  | _ => false

/-- A term that may stand right behind another. -/
def Adjacent (before behind : Term) : Prop :=
  ∃ r r', before.role? = some r ∧ behind.role? = some r' ∧ r.precedes r'

/-! ## Parentheses -/

def Term.isGroupClose (t : Term) : Bool := t.hasKind .groupingOperator && !t.isGroupOpen

def openings (ts : List Term) : Nat := ts.countP (·.isGroupOpen)

def closings (ts : List Term) : Nat := ts.countP (·.isGroupClose)

/-- Parentheses that match: none is closed before it is opened, and none is left open. -/
structure Balanced (ts : List Term) : Prop where
  opened : ∀ n, closings (ts.take n) ≤ openings (ts.take n)
  closed : openings ts = closings ts

variable {ts us : List Term} {t : Term} {form : Form}

lemma openings_group : openings (Term.groupOpen :: ts) = openings ts + 1 :=
  List.countP_cons_of_pos rfl

lemma closings_group : closings (Term.groupOpen :: ts) = closings ts :=
  List.countP_cons_of_neg nofun

lemma openings_append : openings (ts ++ us) = openings ts + openings us := List.countP_append

lemma closings_append : closings (ts ++ us) = closings ts + closings us := List.countP_append

lemma balanced_of_none (none : ∀ t ∈ ts, t.hasKind .groupingOperator = false) : Balanced ts := by
  have opening : ∀ us : List Term, (∀ t ∈ us, t ∈ ts) → openings us = 0 := by
    intro us sub
    apply List.countP_eq_zero.mpr
    intro t ht
    simp [Term.isGroupOpen, none t (sub t ht)]
  have closing : ∀ us : List Term, (∀ t ∈ us, t ∈ ts) → closings us = 0 := by
    intro us sub
    apply List.countP_eq_zero.mpr
    intro t ht
    simp [Term.isGroupClose, none t (sub t ht)]
  constructor
  · intro n
    rw [closing _ fun t ht => List.mem_of_mem_take ht]
    exact Nat.zero_le _
  · rw [opening ts fun _ h => h, closing ts fun _ h => h]

lemma Balanced.append (first : Balanced ts) (rest : Balanced us) : Balanced (ts ++ us) where
  opened := by
    intro n
    rw [List.take_append, openings_append, closings_append]
    exact Nat.add_le_add (first.opened n) (rest.opened _)
  closed := by rw [openings_append, closings_append, first.closed, rest.closed]

lemma Balanced.group (inner : Balanced ts) :
    Balanced (Term.groupOpen :: (ts ++ [Term.groupClose])) where
  opened := by
    intro n
    cases n with
    | zero => exact Nat.le_refl 0
    | succ n =>
      -- At most one more is closed than in the part inside, and one more is open already.
      have inside := inner.opened n
      have last : closings ([Term.groupClose].take (n - ts.length)) ≤ 1 :=
        Nat.le_trans List.countP_le_length (List.length_take_le' _ _)
      rw [List.take_succ_cons, openings_group, closings_group, List.take_append, openings_append,
        closings_append]
      omega
  closed := by
    have last : openings [Term.groupClose] = 0 ∧ closings [Term.groupClose] = 1 := ⟨rfl, rfl⟩
    rw [openings_group, closings_group, openings_append, closings_append, last.1, last.2,
      inner.closed]

/-! ## Grammatical sequences -/

/-- A sequence of terms that starts, goes on and ends as a filter may, with matching parentheses. -/
structure Grammatical (ts : List Term) : Prop where
  first : ∃ t, ts.head? = some t ∧ Role.begins t.role?
  adjacent : ts.IsChain Adjacent
  last : ∃ t, ts.getLast? = some t ∧ Role.ends t.role?
  balanced : Balanced ts
  parentheses : ∀ t ∈ ts, t.kind = some .groupingOperator → t = Term.groupOpen ∨ t = Term.groupClose

lemma grammatical_condition (c : Condition) : Grammatical (c.terms form) := by
  have none : ∀ t ∈ c.terms form, t.kind ≠ some .groupingOperator := by
    intro t ht
    rcases Condition.kind_of_mem_terms ht with kind | kind | kind <;> rw [kind] <;> nofun
  have balanced : Balanced (c.terms form) :=
    balanced_of_none fun t ht => beq_eq_false_iff_ne.mpr (none t ht)
  have parentheses : ∀ t ∈ c.terms form, t.kind = some .groupingOperator →
      t = Term.groupOpen ∨ t = Term.groupClose := fun t ht grouping => (none t ht grouping).elim
  rcases c.terms_cases form with eq | eq <;> rw [eq] at balanced parentheses ⊢
  · exact ⟨⟨_, rfl, rfl⟩, .singleton _, ⟨_, rfl, rfl⟩, balanced, parentheses⟩
  · have adjacent : List.IsChain Adjacent [(Term.column c.column).withLabel c.columnLabel,
        Term.operator c.sign, Term.value c.value.toText] :=
      .cons_cons ⟨_, _, rfl, rfl, rfl⟩ (.cons_cons ⟨_, _, rfl, rfl, rfl⟩ (.singleton _))
    exact ⟨⟨_, rfl, rfl⟩, adjacent, ⟨_, rfl, rfl⟩, balanced, parentheses⟩

/-- A sentence may stand between any two terms that leave room for it. -/
lemma Role.precedes_of_begins {r r' : Role} (h : Role.begins (some r'))
    (room : r = .opening ∨ r = .joiner) : r.precedes r' := by
  cases r' with
  | column => rcases room with rfl | rfl <;> rfl
  | opening => rcases room with rfl | rfl <;> rfl
  | _ => cases h

lemma Role.precedes_of_ends {r r' : Role} (h : Role.ends (some r))
    (room : r' = .closing ∨ r' = .joiner) : r.precedes r' := by
  cases r with
  | column => rcases room with rfl | rfl <;> rfl
  | value => rcases room with rfl | rfl <;> rfl
  | closing => rcases room with rfl | rfl <;> rfl
  | _ => cases h

namespace Grammatical

/-- The first term of a grammatical sequence fits behind an opening parenthesis and a connective. -/
lemma adjacent_first (h : Grammatical ts) {r : Role} (role : t.role? = some r)
    (room : r = .opening ∨ r = .joiner) : ∀ first ∈ ts.head?, Adjacent t first := by
  intro first hf
  obtain ⟨first', eq, begins⟩ := h.first
  cases eq.symm.trans hf
  cases found : first.role? with
  | none => rw [found] at begins; cases begins
  | some r' =>
    rw [found] at begins
    exact ⟨r, r', role, found, Role.precedes_of_begins begins room⟩

/-- A closing parenthesis and a connective fit behind the last term of a grammatical sequence. -/
lemma adjacent_last (h : Grammatical ts) {r : Role} (role : t.role? = some r)
    (room : r = .closing ∨ r = .joiner) : ∀ last ∈ ts.getLast?, Adjacent last t := by
  intro last hl
  obtain ⟨last', eq, ends⟩ := h.last
  cases eq.symm.trans hl
  cases found : last.role? with
  | none => rw [found] at ends; cases ends
  | some r' =>
    rw [found] at ends
    exact ⟨r', r, found, role, Role.precedes_of_ends ends room⟩

lemma group (h : Grammatical ts) :
    Grammatical (Term.groupOpen :: (ts ++ [Term.groupClose])) where
  first := ⟨_, rfl, rfl⟩
  adjacent := by
    have closed : (ts ++ [Term.groupClose]).IsChain Adjacent := by
      refine h.adjacent.append (.singleton _) fun last hl close hc => ?_
      cases hc
      exact h.adjacent_last rfl (.inl rfl) last hl
    refine closed.cons fun first hf => ?_
    obtain ⟨first', eq, _⟩ := h.first
    have head : first ∈ ts.head? := by
      rw [List.head?_append, eq] at hf
      rw [eq]
      exact hf
    exact h.adjacent_first rfl (.inl rfl) first head
  last := ⟨Term.groupClose, List.getLast?_concat (l := Term.groupOpen :: ts), rfl⟩
  balanced := h.balanced.group
  parentheses := by
    intro t ht grouping
    rcases List.mem_cons.mp ht with rfl | ht
    · exact .inl rfl
    · rcases List.mem_append.mp ht with ht | ht
      · exact h.parentheses t ht grouping
      · exact .inr (List.mem_singleton.mp ht)

lemma join (h : Grammatical ts) (connective : Connective) (h' : Grammatical us) :
    Grammatical (ts ++ connective.term :: us) where
  first := by
    obtain ⟨t, eq, begins⟩ := h.first
    exact ⟨t, by rw [List.head?_append, eq]; rfl, begins⟩
  adjacent := by
    have joined : (connective.term :: us).IsChain Adjacent :=
      h'.adjacent.cons fun first hf => h'.adjacent_first rfl (.inr rfl) first hf
    refine h.adjacent.append joined fun last hl joiner hj => ?_
    cases hj
    exact h.adjacent_last rfl (.inr rfl) last hl
  last := by
    obtain ⟨t, eq, ends⟩ := h'.last
    refine ⟨t, ?_, ends⟩
    have behind : (connective.term :: us).getLast? = some t := by
      rw [List.getLast?_cons, eq]
      rfl
    rw [List.getLast?_append, behind]
    rfl
  balanced := by
    have between : Balanced [connective.term] :=
      balanced_of_none fun t ht => by cases List.mem_singleton.mp ht; rfl
    exact h.balanced.append (between.append h'.balanced)
  parentheses := by
    intro t ht grouping
    rcases List.mem_append.mp ht with ht | ht
    · exact h.parentheses t ht grouping
    · rcases List.mem_cons.mp ht with rfl | ht
      · cases grouping
      · exact h'.parentheses t ht grouping

lemma ne_nil (h : Grammatical ts) : ts ≠ [] := by
  rintro rfl
  obtain ⟨_, eq, _⟩ := h.first
  cases eq

end Grammatical

/-! ## Filters as sentences -/

/-- The sequences that conditions, parentheses and connectives make up. -/
inductive Sentence (form : Form) : List Term → Prop
  | condition (c : Condition) : Sentence form (c.terms form)
  | group {ts : List Term} (inner : Sentence form ts) :
      Sentence form (Term.groupOpen :: (ts ++ [Term.groupClose]))
  | join {ts us : List Term} (first : Sentence form ts) (connective : Connective)
      (rest : Sentence form us) : Sentence form (ts ++ connective.term :: us)

lemma Sentence.grammatical (h : Sentence form ts) : Grammatical ts := by
  induction h with
  | condition c => exact grammatical_condition c
  | group _ ih => exact ih.group
  | join _ connective _ ih ih' => exact ih.join connective ih'

namespace Tree

mutual

lemma sentence_member : ∀ tree : Tree, tree.isEmpty = false → Sentence form (tree.memberTerms form)
  | .chain connective children => by
    intro some
    rw [isEmpty] at some
    rw [memberTerms_chain]
    exact (sentence_chain connective children some).group
  | .condition c => by
    intro _
    rw [memberTerms_condition]
    exact .condition c

/-- The terms of a chain that is not empty are a sentence. -/
lemma sentence_chain (connective : Connective) : ∀ children : List Tree,
    allEmpty children = false → Sentence form (chainTerms form connective children)
  | [] => fun some => by
    rw [allEmpty] at some
    cases some
  | child :: rest => by
    intro some
    rw [allEmpty] at some
    cases empty : child.isEmpty with
    | true =>
      rw [empty, Bool.true_and] at some
      rw [chainTerms_skip empty]
      exact sentence_chain connective rest some
    | false =>
      have first := sentence_member child empty
      cases more : allEmpty rest with
      | true =>
        rw [chainTerms_last empty more]
        exact first
      | false =>
        rw [chainTerms_more empty more]
        exact first.join connective (sentence_chain connective rest more)

end

lemma sentence_terms {tree : Tree} (some : tree.isEmpty = false) :
    Sentence .compact tree.terms := by
  cases tree with
  | chain connective children =>
    rw [isEmpty] at some
    exact sentence_chain connective children some
  | condition c => exact .condition c

lemma terms_of_isEmpty {tree : Tree} (empty : tree.isEmpty) : tree.terms = [] := by
  cases tree with
  | chain connective children =>
    rw [isEmpty] at empty
    rw [terms, chainTerms, members_eq_nil_iff.mpr empty]
    rfl
  | condition c =>
    rw [isEmpty] at empty
    cases empty

/-! ## Loaded filters -/

/-- The kind that is expected behind a filter: that of its last term alone decides. -/
def expectedBehind (tree : Tree) : Kind :=
  if tree.isEmpty then .column
  else if tree.terms.getLast?.any (·.hasKind .column) then .operator
  else .logicalOperator

/-- Behind a term that may end a filter, an operator is expected if it is a column, else a
connective. -/
lemma nextKind_of_ends {t : Term} (ends : Role.ends t.role?) :
    Grammar.filter.nextKind t =
      some (if t.hasKind .column then .operator else .logicalOperator) := by
  unfold Term.role? at ends
  unfold Grammar.nextKind Term.hasKind
  dsimp only
  split at ends <;> rename_i kind <;> rw [kind]
  · cases ends
  · rfl
  · cases ends
  · rfl
  · cases ends
  · split at ends
    · cases ends
    · rename_i closing
      simp [closing]

/-- Restoring the terms of a filter derives the expected kind from the last of them. -/
lemma expected_restore (tree : Tree) {e : Editor} (filter : e.grammar = .filter) :
    (e.restore tree.terms).expected = some tree.expectedBehind := by
  have derived : (e.restore tree.terms).expected = e.expectedAfter tree.terms.getLast? := rfl
  rw [derived, expectedBehind]
  cases empty : tree.isEmpty with
  | true =>
    rw [terms_of_isEmpty empty]
    simp [Editor.expectedAfter, filter, Grammar.initialKind]
  | false =>
    obtain ⟨t, last, ends⟩ := (sentence_terms empty).grammatical.last
    simp [Editor.expectedAfter, filter, last, nextKind_of_ends ends]

lemma load_tree (tree : Tree) (e : Editor) :
    (e.respond (.load (.tree tree))).editor = e.restore tree.terms := by
  have accepted : Editor.checkTerms e.grammar tree.terms = .ok () :=
    Editor.checkTerms_eq_ok_iff.mpr fun _ => forall_mem_terms (kind_pervasive .compact) tree
  have named : Editor.payloadTerms (.tree tree) = .ok tree.terms := rfl
  obtain ⟨c, loaded, restored⟩ := Editor.load_of_accepted named accepted
  have eq : e.respond (.load (.tree tree)) = e.loadOrIgnore (.tree tree) := rfl
  rw [eq, Editor.loadOrIgnore, loaded]
  exact restored

/-- The terms of a filter are none if it is empty, and grammatical otherwise; an editor that starts
with the filter or loads it expects what fits behind the last of them. -/
theorem terms_grammatical (tree : Tree) :
    (tree.terms = [] ↔ tree.isEmpty) ∧
      (tree.isEmpty = false → Grammatical tree.terms) ∧
      (∀ settings, (Editor.ofTree settings tree).expected = some tree.expectedBehind) ∧
      ∀ e : Editor, e.grammar = .filter →
        (e.respond (.load (.tree tree))).editor.expected = some tree.expectedBehind := by
  refine ⟨⟨fun none => ?_, terms_of_isEmpty⟩, fun some => (sentence_terms some).grammatical,
    fun settings => expected_restore tree rfl, fun e filter => ?_⟩
  · cases empty : tree.isEmpty with
    | true => rfl
    | false => exact ((sentence_terms empty).grammatical.ne_nil none).elim
  · rw [load_tree]
    exact expected_restore tree filter

/-- A filter with empty chains at both ends and alone in a group, and a column last. -/
theorem terms_grammatical_hollow :
    let hollow := Tree.chain .any []
    let tree := Tree.chain .all [hollow, .chain .any [.condition ⟨['a'], ['='], .text ['('], none⟩,
      hollow, .condition ⟨['b'], ['='], .flag true, none⟩], .chain .all [hollow],
      .condition ⟨['c'], ['='], .flag true, none⟩, hollow]
    Grammatical tree.terms ∧
      ((Editor.new {} .filter).respond (.load (.tree tree))).editor.expected = some .operator := by
  intro hollow tree
  obtain ⟨_, grammatical, _, loaded⟩ := terms_grammatical tree
  exact ⟨grammatical rfl, loaded (.new {} .filter) rfl⟩

end Tree
end FilterEditor
