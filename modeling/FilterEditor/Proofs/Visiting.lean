import FilterEditor.Proofs.Genuine
import FilterEditor.Proofs.Navigation
import FilterEditor.Proofs.Recital
import FilterEditor.Proofs.Sentence
import FilterEditor.Proofs.Validity

/-!
# Visiting slots

A slot that is entered and left without an edit still saves its draft: the label, without line
breaks. Whether the slot may be left and whether its term stays as it is are two questions about
that draft. A term is rewritten just if the draft is valid and reads as another label. A term of a
filter may be left just if it is not the opening parenthesis at the very start: every other term of
a filter whose signs are relational operators is valid in its position.
-/

namespace FilterEditor

namespace Editor

variable {e : Editor} {slot : Slot} {index : Nat} {t : Term}

/-- An editor whose focus was moved to the slot of a term. -/
def visiting (index : Nat) (t : Term) (e : Editor) : Editor :=
  { e with focus := .term index, validity := none, draft := some (Line.ofText t.label) }

/-- The draft of an untouched slot is valid and reads as another label. -/
def Rewrites (index : Nat) (e : Editor) : Prop :=
  ∃ t, e.terms.get? index = some t ∧
    e.check (.term index) (Line.ofText t.label).text = .valid ∧
    (Line.ofText t.label).trimmed ≠ [] ∧ (Line.ofText t.label).trimmed ≠ t.label

/-- From the trailing input a slot is entered at once, and nothing is shown. -/
lemma focused_term (focus : e.focus = .input) (held : e.terms.get? index = some t) :
    e.focused (.term index) = (e.visiting index t).unchanged := by
  have away : ¬ e.Reached (.term index) := by
    rintro (same | outside)
    · cases same.trans focus
    · exact Nat.not_le.mpr (lt_of_get? held) (of_decide_eq_true outside)
  have entered : e.enter (.term index) = (e.visiting index t).unchanged := by
    simp only [enter, Slot.index?, Option.bind_some, held, Option.map_some, unchanged, visiting]
  rcases focused_away away with ⟨_, eq⟩ | ⟨left, elsewhere, _⟩
  · rw [eq, entered]
  · cases focus.symm.trans elsewhere

lemma run_visit (focus : e.focus = .input) (held : e.terms.get? index = some t) :
    e.run [.focused (.term index), .focused slot] =
      ((e.visiting index t).focused slot).editor := by
  have entered : e.run [.focused (.term index), .focused slot] =
      ((e.focused (.term index)).editor.focused slot).editor := rfl
  rw [entered, focused_term focus held]
  rfl

lemma leaves_visiting (other : slot ≠ .term index)
    (within : ∀ i, slot = .term i → i < e.terms.length) :
    (e.visiting index t).Leaves slot index :=
  ⟨rfl, other, within⟩

/-- A mark and the focus have no say in what a slot accepts. -/
lemma stuck_visiting_iff (held : e.terms.get? index = some t) :
    (e.visiting index t).Stuck ↔
      e.check (.term index) (Line.ofText t.label).text ≠ .valid := by
  constructor
  · rintro ⟨_, _, message, _, focus, edited, check⟩ valid
    cases focus
    cases edited
    cases valid.symm.trans check
  · intro invalid
    cases check : e.check (.term index) (Line.ofText t.label).text with
    | valid => exact (invalid check).elim
    | invalid message =>
      exact ⟨index, _, message, Option.isSome_iff_exists.mpr ⟨t, held⟩, rfl, rfl, check⟩

/-! ## What a visit leaves -/

/-- Saving an untouched draft keeps the terms, or puts a term with another label in place of the one
that the slot held. -/
lemma terms_save_visiting (held : e.terms.get? index = some t) :
    ((e.visiting index t).save index).2.editor.terms = e.terms ∧ ¬ e.Rewrites index ∨
      ∃ t', t'.label ≠ t.label ∧ e.Rewrites index ∧
        ((e.visiting index t).save index).2.editor.terms =
          e.terms.withTerms (e.terms.terms.set index t') := by
  have text : (e.visiting index t).slotText (.term index) = (Line.ofText t.label).text :=
    slotText_draft rfl rfl
  have saved := save_cases index (e.visiting index t)
  generalize (e.visiting index t).save index = result at saved ⊢
  cases saved with
  | absent absent => exact (not_absent (e := e.visiting index t) held rfl rfl absent).elim
  | refused edited _ check =>
    cases edited
    refine .inl ⟨rfl, ?_⟩
    rintro ⟨t', held', valid, _⟩
    cases held.symm.trans held'
    cases valid.symm.trans check
  | blank _ edited _ _ blank =>
    cases edited
    refine .inl ⟨rfl, ?_⟩
    rintro ⟨t', held', _, nonblank, _⟩
    cases held.symm.trans held'
    exact nonblank blank
  | kept held'' _ _ _ read label =>
    cases held.symm.trans held''
    have same := (reading_text read).2
    rw [text, ← label] at same
    refine .inl ⟨rfl, ?_⟩
    rintro ⟨t', held', _, _, differs⟩
    cases held.symm.trans held'
    exact differs same.symm
  | @replaced current draft t' held'' edited _ check read label =>
    cases held.symm.trans held''
    cases edited
    obtain ⟨nonblank, same⟩ := reading_text read
    rw [text] at nonblank same
    have rewrites : e.Rewrites index :=
      ⟨t, held, check, nonblank, fun eq => label (eq.symm.trans same.symm)⟩
    exact .inr ⟨t', fun eq => label eq.symm, rewrites, rfl⟩

/-- A visit leaves the terms and the search string as they were, unless the draft of the untouched
slot is valid and reads as another label than the one that it was opened on. -/
theorem visit_keeps_terms_iff (index : Nat) (slot : Slot) (focus : e.focus = .input)
    (lt : index < e.terms.length) (other : slot ≠ .term index)
    (within : ∀ i, slot = .term i → i < e.terms.length) :
    let left := e.run [.focused (.term index), .focused slot]
    (left.terms.terms = e.terms.terms ∧ left.serialized = e.serialized) ↔ ¬ e.Rewrites index := by
  intro left
  have held : e.terms.get? index = some e.terms.terms[index] := List.getElem?_eq_getElem lt
  have terms : left.terms =
      ((e.visiting index e.terms.terms[index]).save index).2.editor.terms := by
    have eq : left = _ := run_visit focus held
    rw [eq]
    exact terms_focused (leaves_visiting other within)
  rcases terms_save_visiting held with ⟨kept, plain⟩ | ⟨t', label, rewrites, replaced⟩
  · rw [kept] at terms
    exact iff_of_true ⟨congrArg Sequence.terms terms, congrArg Sequence.serialized terms⟩ plain
  · rw [replaced] at terms
    refine iff_of_false (fun same => label ?_) (not_not.mpr rewrites)
    have set : e.terms.terms.set index t' = e.terms.terms :=
      (congrArg Sequence.terms terms).symm.trans same.1
    have at_index : e.terms.terms[index]? = some t' := by
      rw [← set]
      exact List.getElem?_set_self lt
    exact congrArg Term.label (Option.some.inj (at_index.symm.trans held))

/-- A value behind a column with white space at its end is visited and stays. -/
theorem visit_keeps_terms_value :
    let e := ofTree {} (.condition ⟨"a ", ['='], .text ['v'], none⟩)
    let left := e.run [.focused (.term 2), .focused (.term 0)]
    (e.focus = .input ∧ 2 < e.terms.length ∧ 0 < e.terms.length) ∧
      left.terms.terms = e.terms.terms ∧ left.serialized = e.serialized := by
  intro e left
  have plain : ¬ e.Rewrites 2 := by
    rintro ⟨t, held, _, _, differs⟩
    cases held
    exact differs rfl
  have within : ∀ i, Slot.term 0 = .term i → i < e.terms.length := by
    rintro _ ⟨⟩
    decide
  exact ⟨by decide, (visit_keeps_terms_iff 2 (.term 0) rfl (by decide) nofun within).mpr plain⟩

/-- A visit takes the white space off a column and its search. -/
theorem visit_rewrites_padded :
    let e := ofTree {} (.condition ⟨"a ", ['='], .text ['v'], none⟩)
    let left := e.run [.focused (.term 0), .focused .input]
    left.terms.terms ≠ e.terms.terms ∧
      e.serialized = "a  = v" ∧ left.serialized = "a = v" := by
  decide

end Editor

/-! ## Terms of a filter in their positions -/

/-- A condition whose sign is one of the relational operators. -/
def Condition.Relational (c : Condition) : Prop :=
  Term.operator c.sign ∈ Term.relationalOperators

instance (c : Condition) : Decidable c.Relational :=
  inferInstanceAs (Decidable (Term.operator c.sign ∈ Term.relationalOperators))

/-- A parenthesis, a connective or a term of one of the conditions. -/
inductive Constituent (form : Form) (conditions : List Condition) : Term → Prop
  | opening : Constituent form conditions Term.groupOpen
  | closing : Constituent form conditions Term.groupClose
  | joining (c : Connective) : Constituent form conditions c.term
  | condition {c : Condition} {t : Term} (mem : c ∈ conditions) (part : t ∈ c.terms form) :
      Constituent form conditions t

variable {form : Form} {conditions conditions' : List Condition} {t before : Term}
  {ts : List Term} {index : Nat} {context : Context}

lemma Constituent.mono (sub : conditions ⊆ conditions') (h : Constituent form conditions t) :
    Constituent form conditions' t := by
  cases h with
  | opening => exact .opening
  | closing => exact .closing
  | joining c => exact .joining c
  | condition mem part => exact .condition (sub mem) part

lemma Term.Joint.constituent (h : t.Joint) : Constituent form conditions t := by
  cases h with
  | opening => exact .opening
  | closing => exact .closing
  | joining c => exact .joining c

/-- Terms that recite conditions have no other constituents. -/
lemma Recital.constituent (h : Recital form conditions ts) :
    ∀ t ∈ ts, Constituent form conditions t := by
  induction h with
  | nil => exact nofun
  | joint joint _ ih =>
    intro t ht
    rcases List.mem_cons.mp ht with rfl | ht
    · exact joint.constituent
    · exact ih t ht
  | condition c _ ih =>
    intro t ht
    rcases List.mem_append.mp ht with ht | ht
    · exact .condition List.mem_cons_self ht
    · exact (ih t ht).mono (List.subset_cons_self _ _)

namespace Tree

lemma constituent_terms (tree : Tree) : ∀ t ∈ tree.terms, Constituent .compact tree.conditions t :=
  tree.recital_terms.constituent

/-- Whether the first filter of a chain that is not empty is a chain. -/
def opensGroup : Tree → Bool
  | .chain _ children => !startsFlat children
  | .condition _ => false

lemma head?_condition (c : Condition) : (c.terms form).head? ≠ some Term.groupOpen := by
  intro opens
  have kind := congrArg (Option.map Term.kind) opens
  rcases c.terms_cases form with eq | eq <;> rw [eq] at kind <;> cases kind

lemma head?_chainTerms (connective : Connective) (children : List Tree) :
    (chainTerms form connective children).head? = some Term.groupOpen ↔
      startsFlat children = false := by
  induction children with
  | nil =>
    rw [chainTerms_nil]
    exact iff_of_false nofun nofun
  | cons child rest ih =>
    cases empty : child.isEmpty with
    | true =>
      have same : startsFlat (child :: rest) = startsFlat rest := by simp [startsFlat, empty]
      rw [chainTerms_skip empty, same]
      exact ih
    | false =>
      have first : startsFlat (child :: rest) = child.isCondition := by simp [startsFlat, empty]
      have head : (chainTerms form connective (child :: rest)).head? =
          (child.memberTerms form).head? := by
        have sentence : Sentence form (child.memberTerms form) := sentence_member child empty
        obtain ⟨t, eq, _⟩ := sentence.grammatical.first
        cases more : allEmpty rest with
        | true => rw [chainTerms_last empty more]
        | false => rw [chainTerms_more empty more, List.head?_append, eq, Option.some_or]
      rw [head, first]
      cases child with
      | chain => exact iff_of_true (by rw [memberTerms_chain]; rfl) rfl
      | condition c =>
        rw [memberTerms_condition]
        exact iff_of_false (head?_condition c) nofun

/-- The terms of a filter start with a parenthesis just if its first part is a chain. -/
lemma head?_terms (tree : Tree) :
    tree.terms.head? = some Term.groupOpen ↔ tree.opensGroup := by
  cases tree with
  | chain connective children =>
    rw [opensGroup, Bool.not_eq_true']
    exact head?_chainTerms connective children
  | condition c => exact iff_of_false (head?_condition c) Bool.false_ne_true

end Tree

/-! ### What the grammar says about them -/

/-- A label of a fixed token has no line breaks. -/
lemma ofText_token (token : t ∈ Term.tokens) : (Line.ofText t.label).text = t.label :=
  (by decide : ∀ t ∈ Term.tokens, (Line.ofText t.label).text = t.label) t token

lemma check_relational (sign : t ∈ Term.relationalOperators) (template : Text) :
    Grammar.filter.check t.label (some .operator) context template = .valid := by
  have labels : ∀ t ∈ Term.relationalOperators, t.label ∈ Grammar.operatorSlotTexts := by decide
  exact Grammar.check_of_accepted (.operator (labels t sign)) template

lemma check_connective (c : Connective) (template : Text) :
    Grammar.filter.check c.term.label (some .logicalOperator) context template = .valid := by
  have joiner : c.term.label ∈ Grammar.logicalSlotTexts := by cases c <;> decide
  exact Grammar.check_of_accepted (.logical joiner) template

/-- A parenthesis is valid behind a term that it fits behind. -/
lemma check_parenthesis {parenthesis : Term} (preceding : context.preceding = some before)
    (fits : Grammar.groupingAfter before = [parenthesis]) (template : Text) :
    Grammar.filter.check parenthesis.label (some .groupingOperator) context template = .valid := by
  have offered : parenthesis ∈
      (Grammar.offered parenthesis.label (some .groupingOperator) context).terms := by
    simp [Grammar.offered, preceding, fits]
  have accepted := (Grammar.accepted_iff (by decide)).mpr (.inr (.inr ⟨_, offered, rfl⟩))
  exact Grammar.check_of_accepted accepted template

/-- Nothing is accepted of a parenthesis without a term before it. -/
lemma check_first {parenthesis : Term} (nonempty : parenthesis.label ≠ [])
    (preceding : context.preceding = none) (template : Text) :
    Grammar.filter.check parenthesis.label (some .groupingOperator) context template ≠ .valid := by
  intro valid
  have accepted := Grammar.check_valid_iff.mp valid
  generalize parenthesis.label = label at nonempty accepted
  cases accepted with
  | free free => exact absurd free (by decide)
  | blank => exact nonempty rfl
  | closing behind | opening behind | repeated behind => cases preceding.symm.trans behind

/-- The kind of the terms in a role. -/
def Role.kind : Role → Kind
  | column => .column
  | operator => .operator
  | value => .value
  | joiner => .logicalOperator
  | opening | closing => .groupingOperator

lemma kind_of_role {r : Role} (role : t.role? = some r) : t.kind = some r.kind := by
  unfold Term.role? at role
  split at role <;> rename_i kind
  case h_6 => split at role <;> cases role <;> exact kind
  case h_1 => cases role
  all_goals
    cases role
    exact kind

/-- Where a parenthesis of a sentence stands, the grammar expects it: behind a parenthesis only the
same one may stand. -/
lemma groupingAfter_adjacent {parenthesis : Term}
    (known : before.kind = some .groupingOperator →
      before = Term.groupOpen ∨ before = Term.groupClose)
    (adjacent : Adjacent before parenthesis)
    (sort : parenthesis = Term.groupOpen ∨ parenthesis = Term.groupClose) :
    Grammar.groupingAfter before = [parenthesis] := by
  obtain ⟨r, r', role, role', precedes⟩ := adjacent
  have kind := kind_of_role role
  rcases sort with rfl | rfl
  · have side : r' = .opening := (Option.some.inj role').symm
    subst side
    cases r with
    | joiner => simp [Grammar.groupingAfter, kind, Role.kind]
    | opening =>
      rcases known kind with rfl | rfl
      · rfl
      · cases role
    | _ => cases precedes
  · have side : r' = .closing := (Option.some.inj role').symm
    subst side
    cases r with
    | column | value => simp [Grammar.groupingAfter, kind, Role.kind]
    | closing =>
      rcases known kind with rfl | rfl
      · cases role
      · rfl
    | _ => cases precedes

namespace Editor

variable {e : Editor}

/-- Behind another term a parenthesis of a sentence is valid. -/
lemma check_inner {parenthesis : Term} (filter : e.grammar = .filter)
    (grammatical : Grammatical e.terms.terms)
    (held : e.terms.get? (index + 1) = some parenthesis)
    (sort : parenthesis = Term.groupOpen ∨ parenthesis = Term.groupClose) :
    e.check (.term (index + 1)) parenthesis.label = .valid := by
  have lt : index + 1 < e.terms.terms.length := lt_of_get? held
  have here : e.terms.terms[index + 1] = parenthesis :=
    Option.some.inj ((List.getElem?_eq_getElem lt).symm.trans held)
  have preceding : (e.slotContext (.term (index + 1))).preceding = some e.terms.terms[index] :=
    List.getElem?_eq_getElem (Nat.lt_of_succ_lt lt)
  have adjacent : Adjacent e.terms.terms[index] parenthesis :=
    here ▸ List.isChain_iff_getElem.mp grammatical.adjacent index lt
  have known := grammatical.parentheses _ (List.getElem_mem (Nat.lt_of_succ_lt lt))
  have kind : e.slotKind (.term (index + 1)) = some .groupingOperator := by
    simp only [slotKind, held, Option.bind_some]
    rcases sort with rfl | rfl <;> rfl
  rw [check, filter, kind]
  exact check_parenthesis preceding (groupingAfter_adjacent known adjacent sort) _

/-- A term of a sentence whose signs are relational operators is valid in its position, unless it is
an opening parenthesis at the start; what free text is, does not matter. -/
lemma check_untouched_iff {text : Text} (filter : e.grammar = .filter)
    (grammatical : Grammatical e.terms.terms) (held : e.terms.get? index = some t)
    (part : Constituent form conditions t) (signs : ∀ c ∈ conditions, c.Relational)
    (whole : t ∈ Term.tokens → text = t.label) :
    e.check (.term index) text = .valid ↔ ¬ (index = 0 ∧ t = Term.groupOpen) := by
  have kind : e.slotKind (.term index) = t.kind := by
    simp only [slotKind, held, Option.bind_some]
  cases part with
  | opening =>
    rw [whole (by decide)]
    cases index with
    | zero =>
      have nonempty : Term.groupOpen.label ≠ [] := by decide
      rw [check, filter, kind]
      exact iff_of_false (check_first nonempty rfl _) (not_not.mpr ⟨rfl, rfl⟩)
    | succ index =>
      have valid := check_inner filter grammatical held (.inl rfl)
      exact iff_of_true valid fun first => nomatch first.1
  | closing =>
    rw [whole (by decide)]
    refine iff_of_true ?_ fun first => absurd first.2 (by decide)
    cases index with
    | zero =>
      obtain ⟨first, head, begins⟩ := grammatical.first
      rw [List.head?_eq_getElem?] at head
      cases head.symm.trans held
      cases begins
    | succ index => exact check_inner filter grammatical held (.inr rfl)
  | joining c =>
    rw [whole (by cases c <;> decide), check, filter, kind]
    exact iff_of_true (check_connective c _) (by cases c <;> nofun)
  | @condition c _ mem part =>
    rw [check, filter, kind]
    refine iff_of_true ?_ ?_
    · rcases Condition.sort_of_mem_terms part with free | free | rfl
      · rw [free]
        rfl
      · rw [free]
        rfl
      · have sign := signs c mem
        rw [whole (Grammar.tokens_of_relational sign)]
        exact check_relational sign _
    · rintro ⟨_, rfl⟩
      rcases Condition.kind_of_mem_terms part with kind | kind | kind <;> cases kind

/-- An editor for a filter, at its start or right after loading it. -/
inductive Holds (tree : Tree) : Editor → Prop
  | start (settings : Settings) : Holds tree (ofTree settings tree)
  | load {e : Editor} (filter : e.grammar = .filter) :
      Holds tree (e.respond (.load (.tree tree))).editor

lemma Holds.eq_restore {tree : Tree} (h : Holds tree e) :
    ∃ before : Editor, before.grammar = .filter ∧ e = before.restore tree.terms := by
  cases h with
  | start settings => exact ⟨.new settings .filter, rfl, rfl⟩
  | @load before filter => exact ⟨before, filter, Tree.load_tree tree before⟩

/-- The focus leaves an untouched slot just if its text is valid. -/
lemma focus_visited_iff (focus : e.focus = .input) (held : e.terms.get? index = some t) :
    (e.run [.focused (.term index), .focused .input]).focus = .input ↔
      e.check (.term index) (Line.ofText t.label).text = .valid := by
  have away : ¬ (e.visiting index t).Reached .input := by
    rintro (same | outside)
    · cases same
    · cases outside
  have stuck := stuck_visiting_iff held
  have cases := focused_cases .input (e.visiting index t)
  rw [run_visit focus held]
  generalize (e.visiting index t).focused .input = c at cases
  cases cases with
  | stays reached => exact (away reached).elim
  | enters _ free entered =>
    exact iff_of_true entered (not_not.mp fun invalid => free (stuck.mpr invalid))
  | refused _ held => exact iff_of_false nofun (stuck.mp held)

/-- In an editor for a filter whose signs are relational operators every untouched slot may be left
for the trailing input, and every label is valid in its position, but for the first one of a filter
that starts with a chain. -/
theorem leaves_untouched_iff (tree : Tree) (signs : ∀ c ∈ tree.conditions, c.Relational)
    (holds : Holds tree e) (lt : index < tree.terms.length) :
    ((e.run [.focused (.term index), .focused .input]).focus = .input ↔
        ¬ (index = 0 ∧ tree.opensGroup)) ∧
      (e.check (.term index) tree.terms[index].label = .valid ↔
        ¬ (index = 0 ∧ tree.opensGroup)) := by
  obtain ⟨before, filter, rfl⟩ := holds.eq_restore
  have held : (before.restore tree.terms).terms.get? index = some tree.terms[index] :=
    List.getElem?_eq_getElem lt
  have some : tree.isEmpty = false := by
    cases empty : tree.isEmpty with
    | true =>
      rw [Tree.terms_of_isEmpty empty] at lt
      cases lt
    | false => rfl
  have grammatical : Grammatical (before.restore tree.terms).terms.terms :=
    (Tree.sentence_terms some).grammatical
  have part := Tree.constituent_terms tree _ (List.getElem_mem lt)
  have first : index = 0 ∧ tree.terms[index] = Term.groupOpen ↔ index = 0 ∧ tree.opensGroup := by
    refine and_congr_right ?_
    rintro rfl
    rw [← Tree.head?_terms, List.head?_eq_getElem?, List.getElem?_eq_getElem lt, Option.some_inj]
  have valid : ∀ text, (tree.terms[index] ∈ Term.tokens → text = tree.terms[index].label) →
      ((before.restore tree.terms).check (.term index) text = .valid ↔
        ¬ (index = 0 ∧ tree.opensGroup)) := fun text whole => by
    rw [← first]
    exact check_untouched_iff filter grammatical held part signs whole
  exact ⟨(focus_visited_iff rfl held).trans (valid _ ofText_token), valid _ fun _ => rfl⟩

/-- A parenthesis behind another one, in a filter that starts with a condition. -/
theorem leaves_untouched_nested :
    let b : Condition := ⟨['b'], ['!', '='], .text ['w'], none⟩
    let tree := Tree.chain .all [.condition ⟨['a'], ['<'], .text ['v'], none⟩,
      .chain .any [.chain .all [.condition b, .condition b], .condition b]]
    let e := ofTree {} tree
    (∀ c ∈ tree.conditions, c.Relational) ∧ 5 < tree.terms.length ∧
      tree.terms[5]? = some Term.groupOpen ∧
      (e.run [.focused (.term 5), .focused .input]).focus = .input ∧
      e.check (.term 5) ['('] = .valid := by
  intro b tree e
  have signs : ∀ c ∈ tree.conditions, c.Relational := by decide
  have lt : 5 < tree.terms.length := by decide
  obtain ⟨leaves, valid⟩ := leaves_untouched_iff tree signs (.start {}) lt
  exact ⟨signs, lt, by decide, leaves.mpr nofun, valid.mpr nofun⟩

/-- The parenthesis at the start of a filter keeps the focus, and no token would be accepted in its
place. -/
theorem leaves_untouched_trapped :
    let tree := Tree.chain .all [.chain .any [.condition ⟨['a'], ['='], .text ['v'], none⟩]]
    let e := ofTree {} tree
    (∀ c ∈ tree.conditions, c.Relational) ∧
      (e.run [.focused (.term 0), .focused .input]).focus = .term 0 ∧
      e.check (.term 0) ['('] = .invalid "Please type one of: " := by
  decide

end Editor
end FilterEditor
