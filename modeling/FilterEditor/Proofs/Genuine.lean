import FilterEditor.Proofs.Conforming
import FilterEditor.Proofs.Navigation

/-!
# Genuine tokens

The kind of a token and its label are written in different places. A commit takes the kind that is
expected and the label that is pending; a save keeps the kind and takes the label of the draft. Both
lean on checks that were made before: an edit of the trailing input never leaves a text that is not of
the expected kind, and a draft is only saved once it is valid.

Neither check covers everything. Removing a term changes the kind that is expected and leaves the
pending text alone, and a valid draft may be a token of another kind than the one that it is saved in.
`Miscommits` says of a message that it runs into one of these; every other message gains genuine tokens
only.
-/

namespace FilterEditor

/-- A term whose label is what its kind says. -/
def Term.Genuine (t : Term) : Prop :=
  match t.kind with
  | some .operator => t.label ≠ [] ∧ ∃ sign ∈ Term.relationalOperators, t.label <+: sign.label
  | some .logicalOperator => t.label = ['&'] ∨ t.label = ['|']
  | some .groupingOperator => t.label = if t.isGroupOpen then ['('] else [')']
  | _ => True

variable {t t' : Term}

lemma genuine_of_tokens (h : t ∈ Term.tokens) : t.Genuine := by
  have sorts : ∀ t ∈ Term.tokens,
      t.kind = some .operator ∧ t.label ≠ [] ∧
          (∃ sign ∈ Term.relationalOperators, t.label <+: sign.label) ∨
        t.kind = some .logicalOperator ∧ (t.label = ['&'] ∨ t.label = ['|']) ∨
        t.kind = some .groupingOperator ∧ t.label = if t.isGroupOpen then ['('] else [')'] := by
    decide
  rcases sorts t h with ⟨kind, genuine⟩ | ⟨kind, genuine⟩ | ⟨kind, genuine⟩ <;>
    simpa only [Term.Genuine, kind] using genuine

lemma genuine_congr (label : t.label = t'.label) (tag : t.tag = t'.tag) (kind : t.kind = t'.kind) :
    t.Genuine ↔ t'.Genuine := by
  obtain ⟨_, _, _, _⟩ := t
  obtain ⟨_, _, _, _⟩ := t'
  cases label
  cases tag
  cases kind
  exact Iff.rfl

/-- The texts that may be committed where an operator is expected are the beginnings of operators. -/
lemma mem_operatorTexts_iff {text : Text} :
    text ∈ operatorTexts ↔ text ≠ [] ∧ ∃ sign ∈ Term.relationalOperators, text <+: sign.label := by
  constructor
  · have begins : ∀ text ∈ operatorTexts,
        text ≠ [] ∧ ∃ sign ∈ Term.relationalOperators, text <+: sign.label := by
      decide
    exact begins text
  · rintro ⟨nonempty, sign, operator, start⟩
    have starts : ∀ sign ∈ Term.relationalOperators, ∀ start ∈ sign.label.inits,
        start ≠ [] → start ∈ operatorTexts := by
      decide
    exact starts sign operator text ((List.mem_inits _ _).mpr start) nonempty

/-- A term that is committed as it was typed is genuine just if the text fits the expected kind. -/
lemma genuine_iff_fits (ungrouped : t.kind ≠ some .groupingOperator) :
    t.Genuine ↔ Fits t.kind t.label := by
  unfold Term.Genuine Fits
  cases kind : t.kind with
  | none => exact Iff.rfl
  | some k =>
    cases k with
    | operator => exact mem_operatorTexts_iff.symm
    | logicalOperator => simp [connectiveTexts, Term.logicalOperators, Term.logical, Term.token]
    | groupingOperator => exact (ungrouped kind).elim
    | column => exact Iff.rfl
    | value => exact Iff.rfl

namespace Editor

variable {e e' e'' : Editor} {c : Char} {index : Nat}

/-! ## Gaining terms -/

/-- An editor for a filter that carries no suggestion. -/
structure Ready (e : Editor) : Prop where
  wellFormed : e.WellFormed
  grammar : e.grammar = .filter
  carried : e.carried = none

lemma Step.ready {scope : Scope} {placed : Bool} {d : Change} (h : Step scope e placed d)
    (other : scope ≠ .suggesting) (he : e.Ready) : d.editor.Ready where
  wellFormed := h.wellFormed he.wellFormed
  grammar := h.frame.2.trans he.grammar
  carried := by
    have carried := he.carried
    cases h with
    | forget => rfl
    | @remove index _ held =>
      rw [remove_eq held]
      obtain ⟨_, _, _, eq⟩ := refocus_eq index (e.without index)
      rw [eq]
      exact carried
    | @write slot _ _ _ edited =>
      obtain ⟨_, _, _, _, rfl⟩ := edit_eq edited
      cases slot <;> exact carried
    | @move slot _ _ _ _ edited =>
      obtain ⟨_, _, _, _, rfl⟩ := edit_eq edited
      cases slot <;> exact carried
    | suggestInput suggesting => exact (other suggesting).elim
    | suggestTerm suggesting => exact (other suggesting).elim
    | reload => rfl
    | adopt => rfl
    | refresh => rfl
    | _ => exact carried

lemma Trace.ready {d : Change} (h : Trace .editing e d) (he : e.Ready) : d.editor.Ready :=
  h.invariant (fun _ _ _ step => step.ready nofun) he

/-- Every term of the second editor is genuine or one of the first. -/
def Gains (e e' : Editor) : Prop := ∀ t ∈ e'.terms.terms, t ∈ e.terms.terms ∨ t.Genuine

lemma Gains.of_terms (same : e'.terms = e.terms) : Gains e e' := fun _ ht => .inl (same ▸ ht)

lemma Gains.refl (e : Editor) : Gains e e := .of_terms rfl

lemma Gains.trans (h : Gains e e') (h' : Gains e' e'') : Gains e e'' := by
  intro t ht
  rcases h' t ht with ht | genuine
  · exact h t ht
  · exact .inr genuine

lemma gains_add (genuine : t.Genuine) : Gains e (e.add t).editor := by
  intro x hx
  rcases List.mem_append.mp hx with hx | hx
  · exact .inl hx
  · cases List.mem_singleton.mp hx
    exact .inr genuine

lemma gains_confirm (he : e.Ready) (previewed : e.preview = some t) : Gains e (e.add t).editor :=
  gains_add (genuine_of_tokens (he.wellFormed.previewed.token previewed))

lemma Ready.ungrouped (he : e.Ready) : e.expected ≠ some .groupingOperator := by
  intro grouping
  rcases he.wellFormed.typed.expected he.grammar with expected | expected | expected | expected <;>
    cases expected.symm.trans grouping

/-- A pending text is committed as a genuine term just if it fits. -/
lemma gains_exchange (he : e.Ready) (fitting : e.Fitting) : Gains e e.exchange.editor := by
  by_cases blank : e.input.trimmed = []
  · rw [exchange_of_blank blank]
    exact .refl e
  · obtain ⟨t, label, _, kind, eq⟩ := exchange_of_nonblank he.carried blank
    rw [eq]
    refine gains_add (e := { e with carried := none }) ?_
    apply (genuine_iff_fits (kind ▸ he.ungrouped)).mpr
    rw [label, kind]
    exact fitting.resolve_left blank

lemma gains_remove (index : Nat) (e : Editor) : Gains e (e.remove index).editor := by
  cases held : e.terms.get? index with
  | none =>
    rw [remove_absent held]
    exact .refl e
  | some t =>
    rw [remove_eq held]
    obtain ⟨_, _, _, eq⟩ := refocus_eq index (e.without index)
    rw [eq]
    exact fun x hx => .inl (List.mem_of_mem_eraseIdx hx)

lemma gains_pop (e : Editor) : Gains e e.pop.editor := by
  unfold pop
  split
  · exact gains_remove _ e
  · exact .refl e

lemma gains_clearSelected (e : Editor) : Gains e e.clearSelected.editor := by
  have removals : ∀ (indices : List Nat) (d : Change), Gains e d.editor →
      Gains e (indices.foldl (fun d index => d.andThen (remove index)) d).editor := by
    intro indices
    induction indices with
    | nil => exact fun _ h => h
    | cons index rest ih => exact fun d h => ih _ (h.trans (gains_remove index d.editor))
  unfold clearSelected
  split
  · exact removals _ _ (.refl e)
  · exact .refl e

/-! ## Typing -/

lemma gains_followed (he : e.Ready) (h : Followed e e') : Gains e e' := by
  cases h with
  | waiting => exact .refl e
  | previewed preview => exact gains_confirm he preview
  | exchanged preview same =>
    exact gains_exchange he (.inr (same ▸ he.wellFormed.previewed.fits preview))

lemma gains_editSlot {slot : Slot} {change : Line → Option Line} (keeps : Line.Keeps change)
    (he : e.Ready) : Gains e (e.editSlot slot change).editor := by
  unfold editSlot
  split
  · exact .refl e
  · rename_i e' edited
    obtain ⟨_, _, _, _, rfl⟩ := edit_eq edited
    cases slot with
    | input =>
      have step : Step .editing e true _ := .write keeps edited
      have ready := step.ready nofun he
      obtain ⟨e'', followed, eq | eq⟩ := afterInput_cases (e.withLine .input _)
      · have gains := gains_followed ready followed
        rw [← eq] at gains
        exact gains
      · have gains := (gains_followed ready followed).trans (gains_clearSelected e'')
        rw [← eq] at gains
        exact gains
    | term index =>
      apply Gains.of_terms
      simp only [Change.andThen, afterEdit, afterTermEdit]
      split <;> rfl

/-- What is pending before the start of a longer operator may be committed. -/
lemma fitting_of_begins (he : e.Ready)
    (begins : (e.grammar.continuations (e.typedText c) e.expected
      (e.slotContext .input)).isPartial) : e.Fitting := by
  rcases he.wellFormed.typed.expected he.grammar with expected | expected | expected | expected
  · right
    rw [expected]
    trivial
  · have typed : e.typedText c = e.input.trimmed ++ [c] := if_pos expected
    rw [he.grammar, expected, typed] at begins
    obtain ⟨_, sign, operator, start⟩ := mem_operatorTexts_iff.mp (Grammar.fits_of_partial begins)
    by_cases blank : e.input.trimmed = []
    · exact .inl blank
    · right
      rw [expected]
      exact mem_operatorTexts_iff.mpr ⟨blank, sign, operator, (List.prefix_append _ _).trans start⟩
  · right
    rw [expected]
    trivial
  · rw [expected, Grammar.isPartial_logical] at begins
    cases begins

/-- What is pending before a token may be committed, unless the token is a closing parenthesis behind a
whole condition. -/
lemma fitting_of_token (he : e.Ready)
    (offers : e.grammar.continuations (e.typedText c) e.expected (e.slotContext .input) =
      ⟨[t], false⟩) (label : t.label = e.typedText c) (kind : e.expected ≠ t.kind)
    (spared : e.expected = some .logicalOperator → c = ')' → e.Fitting) : e.Fitting := by
  have cases := token_cases he.grammar he.wellFormed.typed offers
  rcases he.wellFormed.typed.expected he.grammar with expected | expected | expected | expected
  · right
    rw [expected]
    trivial
  · left
    have typed : e.typedText c = e.input.trimmed ++ [c] := if_pos expected
    have kinds : ∀ t ∈ Term.relationalOperators, t.kind = some .operator := by decide
    have lengths : ∀ t ∈ joiners, t.label.length = 1 := by decide
    rcases cases with ⟨_, column, _⟩ | ⟨operator, _⟩ | ⟨joiner, _⟩
    · cases expected.symm.trans column
    · exact (kind (expected.trans (kinds t operator).symm)).elim
    · have length := lengths t joiner
      rw [label, typed, List.length_append] at length
      exact List.length_eq_zero_iff.mp (Nat.add_right_cancel length)
  · right
    rw [expected]
    trivial
  · apply spared expected
    have typed : e.typedText c = [c] := typedText_of_ne (by rw [expected]; nofun) c
    have kinds : ∀ t ∈ Term.logicalOperators, t.kind = some .logicalOperator := by decide
    rcases cases with ⟨_, column, _⟩ | ⟨_, operator | ⟨column, _⟩⟩ | ⟨joiner, _⟩
    · cases expected.symm.trans column
    · cases expected.symm.trans operator
    · cases expected.symm.trans column
    · rcases List.mem_cons.mp joiner with rfl | logical
      · rw [typed] at label
        cases label
        rfl
      · exact (kind (expected.trans (kinds t logical).symm)).elim

lemma gains_insertPlain {slot : Slot} (he : e.Ready) (c : Char) :
    Gains e (e.insertPlain slot c).editor :=
  gains_editSlot (Line.keeps_insertChar c) he

lemma gains_confirmPreview {slot : Slot} (he : e.Ready) :
    Gains e (e.confirmPreview slot).editor := by
  unfold confirmPreview
  split
  · dsimp only
    split
    · rename_i previewed
      exact gains_confirm he previewed
    · exact .refl e
  · exact gains_insertPlain he ' '

/-- A character gains genuine tokens only, unless it is a closing parenthesis behind a whole condition
and a text that is no connective. -/
lemma gains_insertChar (he : e.Ready)
    (spared : e.expected = some .logicalOperator → c = ')' → e.Fitting) :
    Gains e (e.insertChar .input c).editor := by
  have struck := struck_insertChar c e
  generalize (e.insertChar .input c).editor = typed at struck ⊢
  cases struck with
  | space => exact gains_confirmPreview he
  | begins begins =>
    have ready : e.exchange.editor.Ready := (trace_exchange e).ready he
    exact (gains_exchange he (fitting_of_begins he begins)).trans (gains_insertPlain ready c)
  | plain => exact gains_insertPlain he c
  | @token t offers label =>
    have genuine := genuine_of_tokens (token_of_offers he.grammar he.wellFormed.typed offers)
    split
    · rename_i kind
      have fitting := fitting_of_token he offers label kind spared
      exact (gains_exchange he fitting).trans (gains_add genuine)
    · exact gains_add (e := { e with input := {} }) genuine

lemma insertChar_term (index : Nat) (c : Char) (e : Editor) :
    e.insertChar (.term index) c = e.insertPlain (.term index) c := by
  unfold insertChar confirmPreview
  split
  · rename_i space
    rw [space]
    rfl
  · rfl

lemma gains_deleteBackward {slot : Slot} (he : e.Ready) :
    Gains e (e.deleteBackward slot).editor := by
  unfold deleteBackward
  split
  · have cleared : e.clearSelected.editor.Ready := (trace_clearSelected e).ready he
    refine (gains_clearSelected e).trans ?_
    dsimp only [Change.andShow, Change.andThen]
    split
    · exact gains_pop _
    · exact gains_editSlot Line.keeps_deleteBackward cleared
  · exact gains_editSlot Line.keeps_deleteBackward he

lemma gains_deleteForward {slot : Slot} (he : e.Ready) :
    Gains e (e.deleteForward slot).editor := by
  have deleted : Gains e (e.editSlot slot Line.deleteForward?).editor :=
    gains_editSlot Line.keeps_deleteForward he
  unfold deleteForward
  dsimp only
  split
  · exact deleted.trans (gains_clearSelected _)
  · exact deleted

/-! ## Moving -/

lemma terms_moveInSlot (slot : Slot) (change : Line → Option Line) (e : Editor) :
    (e.moveInSlot slot change).terms = e.terms := by
  unfold moveInSlot
  cases edited : e.edit? slot change with
  | none => rfl
  | some e' =>
    obtain ⟨_, _, _, _, rfl⟩ := edit_eq edited
    cases slot <;> rfl

lemma terms_cyclePreview (direction : Direction) (e : Editor) :
    (e.cyclePreview direction).editor.terms = e.terms := by
  unfold cyclePreview
  dsimp only
  split <;> rfl

lemma terms_moveSideways (slot : Slot) (atEdge : Line → Bool) (move : Line → Option Line)
    (target : Editor → Option Slot) (e : Editor) :
    (e.moveSideways slot atEdge move target).editor.terms = e.terms := by
  have moved : (if (e.line? slot).any atEdge && e.hasTerms then (⟨e, focusEffects (target e)⟩ : Change)
      else (e.moveInSlot slot move).unchanged).editor.terms = e.terms := by
    split
    · rfl
    · exact terms_moveInSlot slot move e
  unfold moveSideways
  dsimp only
  split
  · exact moved
  · exact moved

lemma terms_moveCursor (slot : Slot) (direction : Direction) (e : Editor) :
    (e.moveCursor slot direction).editor.terms = e.terms := by
  cases direction with
  | up => exact terms_cyclePreview .up e
  | down => exact terms_cyclePreview .down e
  | left => exact terms_moveSideways _ _ _ _ e
  | right => exact terms_moveSideways _ _ _ _ e

lemma terms_moveEnd (slot : Slot) (e : Editor) : (e.moveEnd slot).editor.terms = e.terms := by
  unfold moveEnd
  dsimp only
  split
  · exact terms_moveInSlot slot _ e
  · exact terms_moveInSlot slot _ e

/-! ## Saving -/

/-- Saving a term slot gives its term a label that its kind does not say: the draft is valid as another
token. -/
def Mislabels (e : Editor) (index : Nat) : Prop :=
  ∃ current draft, e.terms.get? index = some current ∧ e.draft = some draft ∧
    e.focus = .term index ∧ e.check (.term index) draft.text = .valid ∧ draft.text.trim ≠ [] ∧
    ¬ ({ current with label := draft.text.trim } : Term).Genuine

lemma genuine_saved_iff {current : Term} {draft : Line} (he : e.Ready)
    (held : e.terms.get? index = some current) (edited : e.draft = some draft)
    (focus : e.focus = .term index) (read : e.reading (.term index) = some t) :
    draft.text.trim ≠ [] ∧ t.label = draft.text.trim ∧
      (t.Genuine ↔ ({ current with label := draft.text.trim } : Term).Genuine) := by
  have kind := he.wellFormed.typed.kinds he.grammar current (List.mem_of_getElem? held)
  obtain ⟨nonblank, label, tag, kind⟩ := reading_label he.carried held kind read
  rw [slotText_draft focus edited] at nonblank label
  exact ⟨nonblank, label, genuine_congr label tag kind⟩

lemma gains_save (he : e.Ready) (spared : ¬ e.Mislabels index) :
    Gains e (e.save index).2.editor := by
  have cases := save_cases index e
  generalize e.save index = saved at cases
  cases cases with
  | @replaced current draft t held edited focus check read _ =>
    intro x hx
    rcases List.mem_or_eq_of_mem_set hx with hx | rfl
    · exact .inl hx
    · right
      obtain ⟨nonblank, _, genuine_iff⟩ := genuine_saved_iff he held edited focus read
      by_contra mislabelled
      exact spared ⟨current, draft, held, edited, focus, check, nonblank, mt genuine_iff.mpr mislabelled⟩
  | _ => exact .of_terms rfl

lemma Mislabels.save (h : e.Mislabels index) (he : e.Ready)
    (genuine : ∀ t ∈ e.terms.terms, t.Genuine) :
    ∃ t ∈ (e.save index).2.editor.terms.terms, ¬ t.Genuine := by
  obtain ⟨current, draft, held, edited, focus, check, nonblank, mislabelled⟩ := h
  have cases := save_cases index e
  generalize e.save index = saved at cases
  cases cases with
  | absent absent => exact (not_absent held edited focus absent).elim
  | refused edited' _ refused =>
    cases edited.symm.trans edited'
    cases check.symm.trans refused
  | blank _ edited' _ _ blank =>
    cases edited.symm.trans edited'
    exact (nonblank blank).elim
  | kept held' _ _ _ read same =>
    -- The label is the one that the term has had, and the term is genuine.
    cases held.symm.trans held'
    obtain ⟨_, label, _⟩ := genuine_saved_iff he held edited focus read
    rw [← label, ← same] at mislabelled
    exact (mislabelled (genuine current (List.mem_of_getElem? held))).elim
  | @replaced _ _ t _ _ _ _ read =>
    obtain ⟨_, _, genuine_iff⟩ := genuine_saved_iff he held edited focus read
    exact ⟨t, List.mem_set (lt_of_get? held) t, mt genuine_iff.mp mislabelled⟩

/-- The display moves the focus away from a term slot whose draft has to be saved. -/
def Leaves (e : Editor) (slot : Slot) (left : Nat) : Prop :=
  e.focus = .term left ∧ slot ≠ e.focus ∧ ∀ index, slot = .term index → index < e.terms.length

lemma Leaves.away {slot : Slot} {left : Nat} (leaves : e.Leaves slot left) : ¬ e.Reached slot := by
  obtain ⟨_, other, within⟩ := leaves
  rintro (same | outside)
  · exact other same
  · cases slot with
    | input => cases outside
    | term index => exact absurd (within index rfl) (Nat.not_lt.mpr (of_decide_eq_true outside))

lemma terms_enter (slot : Slot) (e : Editor) : (e.enter slot).editor.terms = e.terms := by
  cases slot <;> rfl

/-- Leaving a term slot saves it and touches the terms no further. -/
lemma terms_focused {slot : Slot} {left : Nat} (leaves : e.Leaves slot left) :
    (e.focused slot).editor.terms = (e.save left).2.editor.terms := by
  rcases focused_away leaves.away with ⟨input, _⟩ | ⟨other, focus, free | stuck⟩
  · cases leaves.1.symm.trans input
  · cases leaves.1.symm.trans focus
    rw [free.2]
    exact terms_enter slot _
  · cases leaves.1.symm.trans focus
    rw [stuck.2]
    rfl

lemma gains_focused {slot : Slot} (he : e.Ready)
    (spared : ∀ left, e.Leaves slot left → ¬ e.Mislabels left) :
    Gains e (e.focused slot).editor := by
  by_cases leaves : ∃ left, e.Leaves slot left
  · obtain ⟨left, leaves⟩ := leaves
    have saved := gains_save he (spared left leaves)
    intro t ht
    rw [terms_focused leaves] at ht
    exact saved t ht
  · apply Gains.of_terms
    unfold focused
    split
    · rfl
    · rename_i moves
      split
      · exact terms_enter slot e
      · rename_i left focus
        refine (leaves ⟨left, focus, fun same => moves (.inl same), ?_⟩).elim
        rintro index rfl
        exact Nat.lt_of_not_le fun outside => moves (.inr (decide_eq_true outside))

/-! ## Runs -/

/-- A message commits a pending text that is no token of the expected kind, or saves a draft that is no
token of the kind that it is saved in. -/
def Miscommits (e : Editor) : Message → Prop
  | .exchange | .submit => ¬ e.Fitting
  | .insertChar c =>
    e.focus = .input ∧ e.expected = some .logicalOperator ∧ c = ')' ∧ ¬ e.Fitting
  | .save index => e.Mislabels index
  | .focused slot => ∃ left, e.Leaves slot left ∧ e.Mislabels left
  | _ => False

lemma terms_submit (e : Editor) : e.submit.editor.terms = e.exchange.editor.terms := by
  have marked : ∀ e : Editor, e.markRequired.editor.terms = e.terms := by
    intro e
    unfold markRequired
    split <;> rfl
  exact marked e.exchange.editor

/-- Committing a pending text that does not fit leaves a term that is not genuine. -/
lemma lost_exchange (he : e.Ready) (misfit : ¬ e.Fitting) :
    ∃ t ∈ e.exchange.editor.terms.terms, ¬ t.Genuine := by
  obtain ⟨nonblank, misfit⟩ := not_or.mp misfit
  obtain ⟨t, label, _, kind, eq⟩ := exchange_of_nonblank he.carried nonblank
  rw [eq]
  refine ⟨t, List.mem_append_right _ (List.mem_singleton.mpr rfl), fun genuine => misfit ?_⟩
  rw [← label, ← kind]
  exact (genuine_iff_fits (kind ▸ he.ungrouped)).mp genuine

lemma lost_insertChar (he : e.Ready) (expected : e.expected = some .logicalOperator)
    (misfit : ¬ e.Fitting) : ∃ t ∈ (e.insertChar .input ')').editor.terms.terms, ¬ t.Genuine := by
  have typed : e.typedText ')' = [')'] := typedText_of_ne (by rw [expected]; nofun) ')'
  have offers : e.grammar.continuations (e.typedText ')') e.expected (e.slotContext .input) =
      ⟨[Term.groupClose], false⟩ := by
    rw [he.grammar, typed, expected]
    exact Grammar.continuations_joiner List.mem_cons_self (.inr (.inr rfl))
  rw [insertChar_token (by decide) offers typed.symm, if_pos (by rw [expected]; nofun)]
  obtain ⟨t, ht, lost⟩ := lost_exchange he misfit
  exact ⟨t, List.mem_append_left _ ht, lost⟩

/-- A message that miscommits leaves a term that is not genuine. -/
lemma Miscommits.lost {message : Message} (h : e.Miscommits message) (he : e.Ready)
    (genuine : ∀ t ∈ e.terms.terms, t.Genuine) :
    ∃ t ∈ (e.respond message).editor.terms.terms, ¬ t.Genuine := by
  cases message with
  | exchange => exact lost_exchange he h
  | submit =>
    rw [respond, terms_submit]
    exact lost_exchange he h
  | insertChar c =>
    obtain ⟨focus, expected, rfl, misfit⟩ := h
    rw [respond, focus]
    exact lost_insertChar he expected misfit
  | save index => exact Mislabels.save h he genuine
  | focused slot =>
    obtain ⟨left, leaves, mislabels⟩ := h
    rw [respond, terms_focused leaves]
    exact mislabels.save he genuine
  | _ => exact h.elim

/-- A message that neither loads nor suggests anything gains genuine tokens only, unless it
miscommits. -/
lemma gains_respond {message : Message} (he : e.Ready) (loading : message.scope ≠ .loading)
    (suggesting : message.scope ≠ .suggesting) (single : ∀ text, message ≠ .insertText text)
    (spared : ¬ e.Miscommits message) : Gains e (e.respond message).editor := by
  cases message with
  | insertChar c =>
    rw [respond]
    cases focus : e.focus with
    | input =>
      refine gains_insertChar he fun expected close => ?_
      exact not_not.mp fun misfit => spared ⟨focus, expected, close, misfit⟩
    | term index =>
      rw [insertChar_term]
      exact gains_insertPlain he c
  | insertText text => exact (single text rfl).elim
  | deleteBackward => exact gains_deleteBackward he
  | deleteForward => exact gains_deleteForward he
  | moveCursor direction => exact .of_terms (terms_moveCursor _ direction e)
  | moveStart => exact .of_terms (terms_moveInSlot _ _ e)
  | moveEnd => exact .of_terms (terms_moveEnd _ e)
  | confirmPreview => exact gains_confirmPreview he
  | commitPreview =>
    rw [respond]
    unfold commitPreview
    split
    · rename_i previewed
      exact gains_confirm he previewed
    · exact .refl e
  | cyclePreview direction => exact .of_terms (terms_cyclePreview direction e)
  | exchange => exact gains_exchange he (not_not.mp spared)
  | removeLast => exact gains_pop e
  | remove index => exact gains_remove index e
  | clearSelected => exact gains_clearSelected e
  | save index => exact gains_save he spared
  | selectAll => exact .of_terms rfl
  | deselect => exact .of_terms rfl
  | toggle index =>
    apply Gains.of_terms
    rw [respond]
    unfold toggle
    split
    · rfl
    · split <;> rfl
  | forward => exact .of_terms rfl
  | backward => exact .of_terms rfl
  | focused slot =>
    exact gains_focused he fun left leaves mislabels => spared ⟨left, leaves, mislabels⟩
  | suggestion => exact (suggesting rfl).elim
  | completion => exact (suggesting rfl).elim
  | load => exact (loading rfl).elim
  | refresh => exact fun t ht => .inl ht
  | reset => exact List.forall_mem_nil _
  | submit =>
    intro t ht
    rw [respond, terms_submit] at ht
    exact gains_exchange he (not_not.mp spared) t ht

/-- After any messages but loads and suggestions every token of a filter that was empty at first is
genuine, all along their strokes, just if no stroke miscommits. -/
theorem genuine_run_iff (s : Settings) {messages : List Message}
    (editing : ∀ message ∈ messages, message.scope ≠ .loading ∧ message.scope ≠ .suggesting) :
    (new s .filter).run (messages.flatMap Message.strokes) = (new s .filter).run messages ∧
      ((∀ n, ∀ t ∈ ((new s .filter).run ((messages.flatMap Message.strokes).take n)).terms.terms,
          t.Genuine) ↔
        ∀ n stroke, (messages.flatMap Message.strokes)[n]? = some stroke →
          ¬ ((new s .filter).run ((messages.flatMap Message.strokes).take n)).Miscommits stroke) := by
  have ready : (new s .filter).Ready := ⟨(Started.new s .filter).wellFormed, rfl, rfl⟩
  refine ⟨run_strokes _ messages,
    prefixes_iff (P := fun e => ∀ t ∈ e.terms.terms, t.Genuine) ?_ ready nofun⟩
  intro stroke mem e he genuine
  obtain ⟨message, hm, hs⟩ := List.mem_flatMap.mp mem
  obtain ⟨loading, suggesting⟩ := editing message hm
  rw [← scope_of_strokes hs] at loading suggesting
  constructor
  · exact (settled_respond e stroke).trace.invariant
      (fun _ _ _ step => step.ready suggesting) he
  · constructor
    · intro kept miscommits
      obtain ⟨t, ht, lost⟩ := miscommits.lost he genuine
      exact lost (kept t ht)
    · intro spared t ht
      rcases gains_respond he loading suggesting (ne_insertText_of_strokes hs) spared t ht with
        old | gained
      · exact genuine t old
      · exact gained

/-- A column is pending when the connective before it goes, and is committed in its place. -/
theorem genuine_run_orphan :
    let messages : List Message := [.insertText "a=v&xyz", .removeLast, .exchange]
    (∀ message ∈ messages, message.scope ≠ .loading ∧ message.scope ≠ .suggesting) ∧
      ¬ ∀ n stroke, (messages.flatMap Message.strokes)[n]? = some stroke →
        ¬ ((new {} .filter).run
          ((messages.flatMap Message.strokes).take n)).Miscommits stroke := by
  intro messages
  have editing : ∀ message ∈ messages,
      message.scope ≠ .loading ∧ message.scope ≠ .suggesting := by
    decide
  refine ⟨editing, fun spared => ?_⟩
  have genuine := (genuine_run_iff {} editing).2.mpr spared 9
  have orphan := genuine ⟨"xyz".toList, "xyz".toList, none, some .logicalOperator⟩ (by decide)
  rcases orphan with eq | eq <;> cases eq

end Editor
end FilterEditor
