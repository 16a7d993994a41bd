import FilterEditor.Proofs.WellFormed

/-!
# The grammar position

The expected kind is meant to be a function of the last committed term. Every step that commits,
removes or restores terms derives it anew; a save writes a term and leaves the expected kind alone.
That does no harm while the saved term asks for the same kind as before. Only a parenthesis can ask
for another kind and stay of its own: an opening one that becomes a closing one, or the other way.

Such a save of the last term is all that ever puts the position out of step, and there are runs where
it happens.
-/

namespace FilterEditor.Editor

variable {scope : Scope} {e e' : Editor} {placed : Bool} {c : Change} {message : Message}

/-- The expected kind is the one that the last committed term asks for. -/
def Positioned (e : Editor) : Prop := e.expected = e.expectedAfter e.terms.last?

/-- The position can be compared with the derived one. -/
instance (e : Editor) : Decidable e.Positioned := inferInstanceAs (Decidable (_ = _))

/-- Saving turns the last term of a filter from an opening into a closing parenthesis or back. -/
def Turns (e : Editor) (message : Message) : Prop :=
  message.scope = .saving ∧ e.grammar = .filter ∧
    (e.respond message).editor.terms.last?.map Term.isGroupOpen ≠
      e.terms.last?.map Term.isGroupOpen

/-! ## Steps that derive the position -/

/-- Every step but a save derives the position or leaves alone what it depends on. -/
lemma Step.positioned_or (h : Step scope e placed c) (editing : scope ≠ .saving) :
    c.editor.Positioned ∨
      c.editor.grammar = e.grammar ∧ c.editor.expected = e.expected ∧
        c.editor.terms = e.terms := by
  have withLine : ∀ slot line, (e.withLine slot line).grammar = e.grammar ∧
      (e.withLine slot line).expected = e.expected ∧ (e.withLine slot line).terms = e.terms := by
    intro slot line
    cases slot <;> exact ⟨rfl, rfl, rfl⟩
  cases h with
  | remove held =>
    rw [remove_eq held]
    exact .inl rfl
  | @write slot _ _ _ edited =>
    obtain ⟨_, _, _, _, rfl⟩ := edit_eq edited
    exact .inr (withLine slot _)
  | @move slot _ _ _ _ edited =>
    obtain ⟨_, _, _, _, rfl⟩ := edit_eq edited
    exact .inr (withLine slot _)
  | replace saving => exact (editing saving).elim
  | add => exact .inl rfl
  | confirm => exact .inl rfl
  | reload => exact .inl rfl
  | adopt => exact .inl rfl
  | refresh => exact .inl rfl
  | _ => exact .inr ⟨rfl, rfl, rfl⟩

/-- Every step but a save keeps the position derived. -/
lemma Step.positioned (h : Step scope e placed c) (editing : scope ≠ .saving)
    (he : e.Positioned) : c.editor.Positioned := by
  rcases h.positioned_or editing with positioned | ⟨grammar, expected, terms⟩
  · exact positioned
  · unfold Positioned expectedAfter at he ⊢
    rw [expected, he, grammar, terms]

/-- Every message but those that save keeps the position derived. -/
lemma positioned_respond (editing : message.scope ≠ .saving) (he : e.Positioned) :
    (e.respond message).editor.Positioned :=
  (settled_respond e message).trace.invariant (fun _ _ _ step => step.positioned editing) he

/-! ## Messages that save -/

/-- An editor that differs in lines, marks and the label of terms at most. -/
structure Kept (e e' : Editor) : Prop where
  grammar : e'.grammar = e.grammar
  expected : e'.expected = e.expected
  kinds : e.grammar = .filter →
    e'.terms.terms.map (·.kind) = e.terms.terms.map (·.kind)

lemma map_kind_set {terms : List Term} {index : Nat} {old t : Term} (held : terms[index]? = some old)
    (kind : t.kind = old.kind) : (terms.set index t).map (·.kind) = terms.map (·.kind) := by
  obtain ⟨lt, rfl⟩ := List.getElem?_eq_some_iff.mp held
  rw [List.map_set, kind]
  apply List.ext_getElem
  · exact List.length_set
  · intro i _ _
    rw [List.getElem_set]
    split
    · rename_i eq
      subst eq
      rw [List.getElem_map]
    · rfl

lemma kept_save (index : Nat) (he : e.Typed) : Kept e (e.save index).2.editor := by
  have h := save_cases index e
  generalize e.save index = saved at h
  cases h with
  | @replaced current _ t held _ _ _ read =>
    refine ⟨rfl, rfl, fun filter => ?_⟩
    apply map_kind_set held
    have kind : current.kind.isSome := he.kinds filter current (List.mem_of_getElem? held)
    exact reading_kind_of_held read held kind
  | _ => exact ⟨rfl, rfl, fun _ => rfl⟩

lemma kept_enter (slot : Slot) (h : Kept e e') : Kept e (e'.enter slot).editor := by
  cases slot <;> exact ⟨h.grammar, h.expected, h.kinds⟩

/-- A message that saves keeps the expected kind and the kinds of the terms. -/
lemma kept_respond (saving : message.scope = .saving) (he : e.Typed) :
    Kept e (e.respond message).editor := by
  have none : Kept e e := ⟨rfl, rfl, fun _ => rfl⟩
  cases message with
  | save index => exact kept_save index he
  | focused slot =>
    unfold respond focused
    dsimp only
    split
    · exact none
    · split
      · exact kept_enter slot none
      · rename_i left _
        have saved := kept_save left he
        split
        · rename_i eq
          rw [eq] at saved
          exact kept_enter slot saved
        · rename_i eq
          rw [eq] at saved
          exact saved
  | _ => cases saving

/-! ## What the position depends on -/

lemma isGroupOpen_of_kind {t : Term} (h : t.kind ≠ some .groupingOperator) :
    t.isGroupOpen = false := by
  have kind : t.hasKind .groupingOperator = false := by simpa [Term.hasKind] using h
  rw [Term.isGroupOpen, kind, Bool.false_and]

/-- Between terms of one kind, the kind expected next differs just if one is an opening parenthesis
and the other is not. -/
lemma nextKind_eq_iff {t t' : Term} (kind : t'.kind = t.kind) :
    Grammar.filter.nextKind t = Grammar.filter.nextKind t' ↔ t'.isGroupOpen = t.isGroupOpen := by
  have closed : t.kind ≠ some .groupingOperator →
      t.isGroupOpen = false ∧ t'.isGroupOpen = false := fun ne =>
    ⟨isGroupOpen_of_kind ne, isGroupOpen_of_kind (kind ▸ ne)⟩
  unfold Grammar.nextKind
  dsimp only
  rw [kind]
  cases hk : t.kind with
  | none => simp [closed (by rw [hk]; decide)]
  | some k =>
    cases k with
    | groupingOperator => cases t.isGroupOpen <;> cases t'.isGroupOpen <;> simp
    | _ => simp [closed (by rw [hk]; decide)]

/-- Without kinds, every editor is in position. -/
lemma positioned_of_plain (plain : e.grammar = .plain) (he : e.Typed) : e.Positioned := by
  unfold Positioned expectedAfter
  rw [he.untyped plain, plain]
  cases e.terms.last? <;> rfl

lemma last_of_kinds (kinds : e'.terms.terms.map (·.kind) = e.terms.terms.map (·.kind)) :
    (e.terms.last? = none ∧ e'.terms.last? = none) ∨
      ∃ t t', e.terms.last? = some t ∧ e'.terms.last? = some t' ∧ t'.kind = t.kind := by
  have last : e'.terms.last?.map (·.kind) = e.terms.last?.map (·.kind) := by
    unfold Sequence.last?
    rw [← List.getLast?_map, kinds, List.getLast?_map]
  cases h : e.terms.last? with
  | none =>
    rw [h] at last
    exact .inl ⟨rfl, Option.map_eq_none_iff.mp last⟩
  | some t =>
    rw [h] at last
    obtain ⟨t', h', kind⟩ := Option.map_eq_some_iff.mp last
    exact .inr ⟨t, t', rfl, h', kind⟩

/-- Once terms are kept but for their labels, the position is still derived just if the last term
asks for the same kind. -/
lemma positioned_kept_iff (h : Kept e e') (filter : e.grammar = .filter) (hp : e.Positioned) :
    e'.Positioned ↔ e'.terms.last?.map Term.isGroupOpen = e.terms.last?.map Term.isGroupOpen := by
  unfold Positioned at hp ⊢
  rw [h.expected, hp]
  unfold expectedAfter
  rw [h.grammar, filter]
  rcases last_of_kinds (h.kinds filter) with ⟨last, last'⟩ | ⟨t, t', last, last', kind⟩
  · simp [last, last']
  · simp only [last, last', Option.map_some, Option.some.injEq]
    exact nextKind_eq_iff kind

/-- From a derived position, a message leads to one that is not derived just if it turns the last
parenthesis. -/
lemma positioned_respond_iff (he : e.WellFormed) (hp : e.Positioned) (message : Message) :
    (e.respond message).editor.Positioned ↔ ¬ e.Turns message := by
  by_cases saving : message.scope = .saving
  · have kept := kept_respond saving he.typed
    cases grammar : e.grammar with
    | plain =>
      have typed : (e.respond message).editor.Typed :=
        (invariant_respond (fun _ _ _ _ step => step.wellFormed) he message).typed
      have plain : (e.respond message).editor.grammar = .plain := kept.grammar.trans grammar
      refine ⟨fun _ turns => ?_, fun _ => positioned_of_plain plain typed⟩
      exact nomatch turns.2.1.symm.trans grammar
    | filter =>
      rw [positioned_kept_iff kept grammar hp]
      refine ⟨fun eq turns => turns.2.2 eq, fun h => ?_⟩
      by_contra ne
      exact h ⟨saving, grammar, ne⟩
  · exact ⟨fun _ turns => saving turns.1, fun _ => positioned_respond saving hp⟩

/-- Whatever else happens, the position is derived unless the last term is a parenthesis. -/
def PositionedOrGrouping (e : Editor) : Prop :=
  e.Positioned ∨ ∃ t, e.terms.last? = some t ∧ t.kind = some .groupingOperator

/-- A message keeps the position derived or a parenthesis at the end. -/
lemma positionedOrGrouping_respond (he : e.WellFormed) (h : e.PositionedOrGrouping)
    (message : Message) : (e.respond message).editor.PositionedOrGrouping := by
  by_cases saving : message.scope = .saving
  · have kept := kept_respond saving he.typed
    cases grammar : e.grammar with
    | plain =>
      have typed : (e.respond message).editor.Typed :=
        (invariant_respond (fun _ _ _ _ step => step.wellFormed) he message).typed
      exact .inl (positioned_of_plain (kept.grammar.trans grammar) typed)
    | filter =>
      -- A save keeps the kind of the last term, and only parentheses of one kind differ in what
      -- they ask for.
      rcases last_of_kinds (kept.kinds grammar) with ⟨last, last'⟩ | ⟨t, t', last, last', kind⟩
      · rcases h with positioned | ⟨_, some, _⟩
        · exact .inl ((positioned_kept_iff kept grammar positioned).mpr (by rw [last, last']))
        · cases some.symm.trans last
      · by_cases grouping : t.kind = some .groupingOperator
        · exact .inr ⟨t', last', kind.trans grouping⟩
        · rcases h with positioned | ⟨_, found, group⟩
          · left
            apply (positioned_kept_iff kept grammar positioned).mpr
            have grouping' : t'.kind ≠ some .groupingOperator := kind ▸ grouping
            rw [last, last', Option.map_some, Option.map_some, isGroupOpen_of_kind grouping,
              isGroupOpen_of_kind grouping']
          · cases found.symm.trans last
            exact (grouping group).elim
  · apply (settled_respond e message).trace.invariant (P := PositionedOrGrouping) ?_ h
    intro e placed c step h
    rcases step.positioned_or saving with positioned | ⟨_, _, terms⟩
    · exact .inl positioned
    · rcases h with positioned | ⟨t, last, grouping⟩
      · exact .inl (step.positioned saving positioned)
      · exact .inr ⟨t, terms ▸ last, grouping⟩

/-! ## Runs -/

/-- From a derived position, every prefix of a run ends in one just if no message turns the last
parenthesis. -/
lemma positioned_prefixes_iff (messages : List Message) (he : e.WellFormed) (hp : e.Positioned) :
    (∀ n, (e.run (messages.take n)).Positioned) ↔
      ∀ n message, messages[n]? = some message → ¬ (e.run (messages.take n)).Turns message := by
  refine prefixes_iff (I := WellFormed) (fun message _ e he hp => ?_) he hp
  exact ⟨he.run [message], positioned_respond_iff he hp message⟩

lemma Started.positioned (h : Started e) : e.Positioned := by
  obtain ⟨_, _, _, _, rfl⟩ := h.eq_restore
  rfl

/-- In every run, the position is the one that the last term asks for, unless that is a
parenthesis. -/
theorem positionedOrGrouping_run {start : Editor} (h : Started start) (messages : List Message) :
    (start.run messages).PositionedOrGrouping := by
  have key : ∀ (messages : List Message) (e : Editor), e.WellFormed → e.PositionedOrGrouping →
      (e.run messages).PositionedOrGrouping := by
    intro messages
    induction messages with
    | nil => exact fun _ _ h => h
    | cons message rest ih =>
      intro e he h
      exact ih _ (he.run [message]) (positionedOrGrouping_respond he h message)
  exact key messages start h.wellFormed (.inl h.positioned)

/-- The position stays the one that the last term asks for, all along a run, just if no message of the
run turns the last parenthesis. -/
theorem positioned_run_iff {start : Editor} (h : Started start) (messages : List Message) :
    (∀ n, (start.run (messages.take n)).Positioned) ↔
      ∀ n message, messages[n]? = some message → ¬ (start.run (messages.take n)).Turns message :=
  positioned_prefixes_iff messages h.wellFormed h.positioned

/-- A value with an opening parenthesis behind it. -/
def openGroup : Editor :=
  (Editor.new {} .filter).restore [Term.value ['a'], Term.typed ['('] .groupingOperator]

/-- The parenthesis is opened, overwritten by a closing one and saved. -/
def turning : List Message :=
  [.focused (.term 1), .deleteBackward, .insertChar ')', .save 1]

/-- A run that turns the last parenthesis leaves a position that is not derived. -/
theorem not_positioned_turning :
    Started openGroup ∧ ¬ (openGroup.run turning).Positioned ∧
      ¬ ∀ n message, turning[n]? = some message →
        ¬ (openGroup.run (turning.take n)).Turns message := by
  have accepted : ofTerms {} .filter [Term.value ['a'], Term.typed ['('] .groupingOperator] =
      .ok openGroup := rfl
  have started : Started openGroup := .ofTerms accepted
  have lost : ¬ (openGroup.run turning).Positioned := by decide
  refine ⟨started, lost, fun kept => ?_⟩
  exact lost ((positioned_run_iff started turning).mpr kept turning.length)

end FilterEditor.Editor
