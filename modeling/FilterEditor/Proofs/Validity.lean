import FilterEditor.Proofs.Grammar

/-!
# Valid texts

What the filter grammar says about the text of a slot. Columns and values are free; an operator, a
logical operator or a parenthesis has to be one of a few texts, which for a parenthesis depend on the
term before it (`Accepted`). All other texts are refused with a message that lists what is offered, and
whatever is offered would be accepted in the same place.
-/

namespace FilterEditor

/-- A template with its first `%s` replaced, or the template itself if there is none. -/
inductive FirstReplaced (value : Text) : Text → Text → Prop
  /-- The `%s` behind `before` is the first: there is none in `before`, nor one that ends with its
  percent sign. -/
  | found {before after : Text} (first : ¬ ['%', 's'] <:+: before ++ ['%']) :
      FirstReplaced value (before ++ '%' :: 's' :: after) (before ++ value ++ after)
  | absent {template : Text} (absent : ¬ ['%', 's'] <:+: template) :
      FirstReplaced value template template

namespace FirstReplaced

variable {value template result rest : Text} {x : Char}

/-- Where no `%s` begins, the first one is found behind the character. -/
lemma cons (other : ¬ ['%', 's'] <+: x :: template) (h : FirstReplaced value template result) :
    FirstReplaced value (x :: template) (x :: result) := by
  cases h with
  | @found before after first =>
    refine @found value (x :: before) _ fun infixed => ?_
    rcases List.infix_cons_iff.mp infixed with front | behind
    · -- What `before` and its percent sign begin with is what the template begins with.
      have longer : before ++ ['%'] <+: before ++ '%' :: 's' :: after := by simp
      exact other (front.trans (List.cons_prefix_cons.mpr ⟨rfl, longer⟩))
    · exact first behind
  | absent absent =>
    refine .absent fun infixed => ?_
    rcases List.infix_cons_iff.mp infixed with front | behind
    · exact other front
    · exact absent behind

end FirstReplaced

namespace Grammar

/-- The operators, the beginnings of longer ones and the tokens that may follow a condition. -/
def operatorSlotTexts : List Text :=
  ["!".toList, "<".toList, ">".toList, "=".toList, "!=".toList, ">=".toList, "<=".toList,
    ")".toList, "&".toList, "|".toList]

/-- The tokens that may follow a condition. -/
def logicalSlotTexts : List Text := [")".toList, "&".toList, "|".toList]

/-- The texts that a slot of a kind accepts behind a term. -/
inductive Accepted (preceding : Option Term) : Option Kind → Text → Prop
  /-- A column, a value and a term without kind may be any text. -/
  | free {kind : Option Kind} {text : Text} (free : kind ∈ [none, some .column, some .value]) :
      Accepted preceding kind text
  /-- Nothing at all is accepted everywhere. -/
  | blank {kind : Option Kind} : Accepted preceding kind []
  | operator {text : Text} (operator : text ∈ operatorSlotTexts) :
      Accepted preceding (some .operator) text
  | logical {text : Text} (joiner : text ∈ logicalSlotTexts) :
      Accepted preceding (some .logicalOperator) text
  /-- A group is closed behind a column, an operator or a value. -/
  | closing {t : Term} (behind : preceding = some t)
      (kind : t.kind ∈ [some .column, some .operator, some .value]) :
      Accepted preceding (some .groupingOperator) [')']
  /-- A group is opened behind a logical operator. -/
  | opening {t : Term} (behind : preceding = some t) (kind : t.kind = some .logicalOperator) :
      Accepted preceding (some .groupingOperator) ['(']
  /-- Behind a parenthesis stands the same one. -/
  | repeated {t : Term} (behind : preceding = some t) (kind : t.kind = some .groupingOperator) :
      Accepted preceding (some .groupingOperator) t.label

variable {text template : Text} {kind : Option Kind} {context : Context} {t : Term}

/-! ## Messages -/

lemma message_other {x : Char} {rest : Text} (c : Continuations)
    (other : ¬ ['%', 's'] <+: x :: rest) : c.message (x :: rest) = x :: c.message rest := by
  rw [Continuations.message.eq_def]
  split
  · rename_i nil
    cases nil
  · rename_i after eq
    exact (other (eq ▸ List.prefix_append ['%', 's'] after)).elim
  · rename_i eq
    cases eq
    rfl

/-- A message is its template with the first `%s` replaced by the labels. -/
lemma replaced_message (c : Continuations) (template : Text) :
    FirstReplaced (Text.join [',', ' '] c.labels) template (c.message template) := by
  induction template with
  | nil => exact .absent (by decide)
  | cons x rest ih =>
    by_cases here : ['%', 's'] <+: x :: rest
    · obtain ⟨after, eq⟩ := here
      cases eq
      exact @FirstReplaced.found _ [] after (by decide)
    · rw [message_other c here]
      exact ih.cons here

/-- A text with the first `%s` replaced by the labels is the message. -/
lemma message_of_replaced {c : Continuations} {result : Text}
    (h : FirstReplaced (Text.join [',', ' '] c.labels) template result) :
    result = c.message template := by
  cases h with
  | @found before after first =>
    induction before with
    | nil => rfl
    | cons x before ih =>
      have other : ¬ ['%', 's'] <+: x :: (before ++ '%' :: 's' :: after) := fun front => by
        have start : x :: (before ++ ['%']) <+: x :: (before ++ '%' :: 's' :: after) := by simp
        have short : ['%', 's'].length ≤ (x :: (before ++ ['%'])).length := by simp
        exact first (List.prefix_of_prefix_length_le front start short).isInfix
      show _ = c.message (x :: (before ++ '%' :: 's' :: after))
      rw [message_other c other, ← ih fun infixed => first (List.infix_cons infixed)]
      rfl
  | absent absent =>
    induction template with
    | nil => rfl
    | cons x rest ih =>
      rw [message_other c fun front => absent front.isInfix,
        ← ih fun infixed => absent (List.infix_cons infixed)]

lemma replaced_iff {c : Continuations} {result : Text} :
    FirstReplaced (Text.join [',', ' '] c.labels) template result ↔ result = c.message template :=
  ⟨message_of_replaced, fun eq => eq ▸ replaced_message c template⟩

/-! ## What is accepted -/

/-- A text is singled out, or begins a longer operator, just if it is one of the labels that are offered
or begins a longer operator. -/
lemma singled_iff (nonempty : text ≠ []) :
    (filter.continuations text kind context).isPartial ∨
        ((filter.continuations text kind context).exactMatch? text).isSome ↔
      (offered text kind context).isPartial ∨
        ∃ t ∈ (offered text kind context).terms, t.label = text := by
  simp only [continuations]
  split
  · rename_i begins
    have begins : (offered text kind context).isPartial := by simpa [nonempty] using begins
    exact iff_of_true (.inl begins) (.inl begins)
  · rename_i whole
    have whole : ¬ (offered text kind context).isPartial := fun begins => whole (by simp [begins])
    split
    · rename_i t found
      have label : t.label = text := by simpa using List.find?_some found
      refine iff_of_true (.inr ?_) (.inr ⟨t, List.mem_of_find?_eq_some found, label⟩)
      simp [Continuations.exactMatch?, label]
    · rename_i none
      have other : ∀ t ∈ (offered text kind context).terms, t.label ≠ text := by
        simpa using List.find?_eq_none.mp none
      refine iff_of_false ?_ ?_
      · rintro (begins | single)
        · exact whole begins
        · obtain ⟨t, single⟩ := Option.isSome_iff_exists.mp single
          obtain ⟨mem, label⟩ := mem_of_exactMatch single
          exact other t mem label
      · rintro (begins | ⟨t, mem, label⟩)
        · exact whole begins
        · exact other t mem label

lemma operatorsAndJoiners_of_whole (whole : (operatorsAndJoiners text).isPartial = false) :
    operatorsAndJoiners text = ⟨Term.relationalOperators ++ joiners, false⟩ := by
  unfold operatorsAndJoiners at whole ⊢
  split at whole
  · rfl
  · cases whole

lemma operatorSlotTexts_of_mem (h : t ∈ (operatorsAndJoiners text).terms) :
    t.label ∈ operatorSlotTexts := by
  have labels : ∀ t ∈ Term.relationalOperators ++ joiners, t.label ∈ operatorSlotTexts := by decide
  exact labels t (List.mem_append.mpr (mem_operatorsAndJoiners h))

/-- Where an operator is expected, a text has to be an operator, to begin one or to be a joiner. -/
lemma offered_operator_iff :
    ((operatorsAndJoiners text).isPartial ∨ ∃ t ∈ (operatorsAndJoiners text).terms, t.label = text) ↔
      text ∈ operatorSlotTexts := by
  constructor
  · rintro (begins | ⟨t, mem, rfl⟩)
    · have longer : extendingOperators text ≠ [] := fun none => by
        rw [operatorsAndJoiners, none] at begins
        cases begins
      exact List.mem_append_left _ (extendingOperators_ne_nil_iff.mp longer)
    · exact operatorSlotTexts_of_mem mem
  · have known : ∀ text ∈ operatorSlotTexts, (operatorsAndJoiners text).isPartial ∨
        ∃ t ∈ (operatorsAndJoiners text).terms, t.label = text := by
      decide
    exact known text

lemma offered_logical_iff : (∃ t ∈ joiners, t.label = text) ↔ text ∈ logicalSlotTexts := by
  simp [joiners, logicalSlotTexts, Term.groupClose, Term.logicalOperators, Term.logical, Term.token,
    eq_comm]

/-- The parenthesis that is offered behind a term is the one that fits there. -/
lemma offered_grouping_iff :
    (∃ t ∈ (offered text (some .groupingOperator) context).terms, t.label = text) ↔
      ∃ t, context.preceding = some t ∧
        (t.kind ∈ [some .column, some .operator, some .value] ∧ text = [')'] ∨
          t.kind = some .logicalOperator ∧ text = ['('] ∨
          t.kind = some .groupingOperator ∧ text = t.label) := by
  cases preceding : context.preceding with
  | none => simp [offered, preceding]
  | some t =>
    cases kind : t.kind with
    | none => simp [offered, preceding, groupingAfter, kind]
    | some k =>
      cases k <;>
        simp [offered, preceding, groupingAfter, kind, Term.groupOpen, Term.groupClose, Term.token,
          eq_comm]

/-- The texts that a slot for a token accepts are no text, the beginnings of longer operators and the
labels that are offered. -/
lemma accepted_iff {k : Kind} (token : k ≠ .column ∧ k ≠ .value) :
    Accepted context.preceding (some k) text ↔
      text = [] ∨ (offered text (some k) context).isPartial ∨
        ∃ t ∈ (offered text (some k) context).terms, t.label = text := by
  cases k with
  | column => exact (token.1 rfl).elim
  | value => exact (token.2 rfl).elim
  | operator =>
    rw [show offered text (some .operator) context = operatorsAndJoiners text from rfl,
      offered_operator_iff]
    constructor
    · intro accepted
      cases accepted with
      | free free => exact absurd free (by decide)
      | blank => exact .inl rfl
      | operator operator => exact .inr operator
    · rintro (rfl | operator)
      · exact .blank
      · exact .operator operator
  | logicalOperator =>
    have offers : offered text (some .logicalOperator) context = ⟨joiners, false⟩ := rfl
    rw [offers, offered_logical_iff]
    constructor
    · intro accepted
      cases accepted with
      | free free => exact absurd free (by decide)
      | blank => exact .inl rfl
      | logical joiner => exact .inr (.inr joiner)
    · rintro (rfl | begins | joiner)
      · exact .blank
      · cases begins
      · exact .logical joiner
  | groupingOperator =>
    have whole : (offered text (some .groupingOperator) context).isPartial = false := by
      cases preceding : context.preceding <;> simp [offered, preceding]
    rw [whole, offered_grouping_iff]
    constructor
    · intro accepted
      cases accepted with
      | free free => exact absurd free (by decide)
      | blank => exact .inl rfl
      | closing behind kind => exact .inr (.inr ⟨_, behind, .inl ⟨kind, rfl⟩⟩)
      | opening behind kind => exact .inr (.inr ⟨_, behind, .inr (.inl ⟨kind, rfl⟩)⟩)
      | repeated behind kind => exact .inr (.inr ⟨_, behind, .inr (.inr ⟨kind, rfl⟩)⟩)
    · rintro (rfl | begins | ⟨t, behind, ⟨kind, rfl⟩ | ⟨kind, rfl⟩ | ⟨kind, rfl⟩⟩)
      · exact .blank
      · cases begins
      · exact .closing behind kind
      · exact .opening behind kind
      · exact .repeated behind kind

/-- What is offered is accepted. -/
lemma accepted_of_offered (h : t ∈ (filter.continuations text kind context).terms) :
    Accepted context.preceding kind t.label := by
  have offered := mem_offered_of_continuations h
  match kind with
  | none | some .column | some .value => exact .free (by decide)
  | some .operator => exact .operator (operatorSlotTexts_of_mem offered)
  | some .logicalOperator =>
    exact (accepted_iff (by decide)).mpr (.inr (.inr ⟨t, offered, rfl⟩))
  | some .groupingOperator =>
    exact (accepted_iff (by decide)).mpr (.inr (.inr ⟨t, offered, rfl⟩))

/-! ## What is said -/

/-- What passes in a slot for a token is what is accepted there. -/
lemma passes_iff {k : Kind} (token : k ≠ .column ∧ k ≠ .value) :
    (text.isEmpty || (filter.continuations text (some k) context).isPartial ||
        ((filter.continuations text (some k) context).exactMatch? text).isSome) ↔
      Accepted context.preceding (some k) text := by
  rw [accepted_iff token, Bool.or_eq_true, Bool.or_eq_true, List.isEmpty_iff, or_assoc]
  by_cases blank : text = []
  · exact iff_of_true (.inl blank) (.inl blank)
  · exact or_congr Iff.rfl (singled_iff blank)

lemma check_of_accepted (accepted : Accepted context.preceding kind text) (template : Text) :
    filter.check text kind context template = .valid := by
  match kind with
  | none | some .column | some .value => rfl
  | some .operator | some .logicalOperator | some .groupingOperator =>
    exact if_pos ((passes_iff (by decide)).mpr accepted)

lemma check_of_refused (refused : ¬ Accepted context.preceding kind text) (template : Text) :
    filter.check text kind context template =
      .invalid ((filter.continuations text kind context).message template) := by
  match kind with
  | none | some .column | some .value => exact (refused (.free (by decide))).elim
  | some .operator | some .logicalOperator | some .groupingOperator =>
    exact if_neg fun passes => refused ((passes_iff (by decide)).mp passes)

/-- The text of the trailing input has a say in nothing that is said about a slot. -/
lemma check_pending (text pending : Text) (kind : Option Kind) (context : Context) (template : Text) :
    filter.check text kind { context with pending } template =
      filter.check text kind context template := by
  match kind with
  | none | some .column | some .value => rfl
  | some .operator | some .logicalOperator | some .groupingOperator => rfl

lemma check_valid_iff :
    filter.check text kind context template = .valid ↔ Accepted context.preceding kind text := by
  constructor
  · intro valid
    by_contra refused
    cases valid.symm.trans (check_of_refused refused template)
  · exact fun accepted => check_of_accepted accepted template

lemma check_invalid_iff {message : Text} :
    filter.check text kind context template = .invalid message ↔
      ¬ Accepted context.preceding kind text ∧
        FirstReplaced (Text.join [',', ' '] (filter.continuations text kind context).labels)
          template message := by
  rw [replaced_iff]
  constructor
  · intro invalid
    have refused : ¬ Accepted context.preceding kind text := fun accepted => by
      cases invalid.symm.trans (check_of_accepted accepted template)
    exact ⟨refused, Verdict.invalid.inj (invalid.symm.trans (check_of_refused refused template))⟩
  · rintro ⟨refused, rfl⟩
    exact check_of_refused refused template

/-- To a text that is refused everything is offered. -/
lemma continuations_of_refused {k : Kind} (token : k ≠ .column ∧ k ≠ .value)
    (refused : ¬ Accepted context.preceding (some k) text) :
    filter.continuations text (some k) context = offered text (some k) context ∧
      (offered text (some k) context).isPartial = false := by
  rw [accepted_iff token, not_or, not_or] at refused
  obtain ⟨nonblank, whole, other⟩ := refused
  have none : (offered text (some k) context).terms.find? (·.label = text) = none := by
    apply List.find?_eq_none.mpr
    intro t mem label
    exact other ⟨t, mem, of_decide_eq_true label⟩
  exact ⟨by simp [continuations, whole, nonblank, none], by simpa using whole⟩

/-- A text that would be accepted in the place of a refused one begins a label that is offered. -/
lemma offered_of_accepted (refused : ¬ Accepted context.preceding kind text) {other : Text}
    (nonblank : other ≠ []) (accepted : Accepted context.preceding kind other) :
    ∃ t ∈ (filter.continuations text kind context).terms, other <+: t.label := by
  match kind with
  | none | some .column | some .value => exact (refused (.free (by decide))).elim
  | some .operator =>
    obtain ⟨offers, whole⟩ := continuations_of_refused (by decide) refused
    have all : offered text (some .operator) context = ⟨Term.relationalOperators ++ joiners, false⟩ :=
      operatorsAndJoiners_of_whole whole
    have begins : ∀ other ∈ operatorSlotTexts,
        ∃ t ∈ Term.relationalOperators ++ joiners, other <+: t.label := by
      decide
    rw [offers, all]
    cases accepted with
    | free free => exact absurd free (by decide)
    | blank => exact (nonblank rfl).elim
    | operator operator => exact begins other operator
  | some .logicalOperator =>
    obtain ⟨offers, _⟩ := continuations_of_refused (by decide) refused
    rw [offers]
    rcases (accepted_iff (by decide)).mp accepted with blank | begins | ⟨t, mem, rfl⟩
    · exact (nonblank blank).elim
    · cases begins
    · exact ⟨t, mem, List.prefix_rfl⟩
  | some .groupingOperator =>
    obtain ⟨offers, whole⟩ := continuations_of_refused (by decide) refused
    rw [offers]
    rcases (accepted_iff (by decide)).mp accepted with blank | begins | ⟨t, mem, rfl⟩
    · exact (nonblank blank).elim
    · cases whole.symm.trans begins
    · exact ⟨t, mem, List.prefix_rfl⟩

/-- A text is valid in a slot just if it is accepted there. The message of any other text is the template
with its first `%s` replaced by the labels of what is offered; whatever is offered is valid itself, and
whatever is accepted begins something that is offered. None of this depends on the text of the trailing
input. -/
theorem check_valid_iff_accepted (text : Text) (kind : Option Kind) (context : Context)
    (template : Text) :
    let offers := filter.continuations text kind context
    (filter.check text kind context template = .valid ↔ Accepted context.preceding kind text) ∧
      (∀ message, filter.check text kind context template = .invalid message ↔
        ¬ Accepted context.preceding kind text ∧
          FirstReplaced (Text.join [',', ' '] offers.labels) template message) ∧
      (∀ t ∈ offers.terms, filter.check t.label kind context template = .valid) ∧
      (¬ Accepted context.preceding kind text → ∀ other, other ≠ [] →
        Accepted context.preceding kind other → ∃ t ∈ offers.terms, other <+: t.label) ∧
      ∀ pending, filter.check text kind { context with pending } template =
        filter.check text kind context template :=
  ⟨check_valid_iff, fun _ => check_invalid_iff,
    fun _ offered => check_of_accepted (accepted_of_offered offered) template,
    fun refused _ nonblank accepted => offered_of_accepted refused nonblank accepted,
    fun pending => check_pending text pending kind context template⟩

/-- Behind nothing a word is refused in the slot of a logical operator, and the tokens that it might be
are listed in the place of the first `%s` alone. -/
theorem check_valid_iff_accepted_refused :
    let context : Context := ⟨[], none⟩
    ¬ Accepted context.preceding (some .logicalOperator) ['x'] ∧ ['&'] ≠ [] ∧
      Accepted context.preceding (some .logicalOperator) ['&'] ∧
      filter.check ['x'] (some .logicalOperator) context "one of %s, not %s" =
        .invalid "one of ), &, |, not %s" ∧
      ∃ t ∈ (filter.continuations ['x'] (some .logicalOperator) context).terms, ['&'] <+: t.label := by
  intro context
  obtain ⟨valid, invalid, _, begins, _⟩ :=
    check_valid_iff_accepted ['x'] (some .logicalOperator) context "one of %s, not %s"
  have message : filter.check ['x'] (some .logicalOperator) context "one of %s, not %s" =
      .invalid "one of ), &, |, not %s" := by decide
  have refused := ((invalid _).mp message).1
  have accepted : Accepted context.preceding (some .logicalOperator) ['&'] := .logical (by decide)
  exact ⟨refused, by decide, accepted, message, begins refused ['&'] (by decide) accepted⟩

end Grammar
end FilterEditor
