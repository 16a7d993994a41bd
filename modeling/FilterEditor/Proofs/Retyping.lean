import FilterEditor.Proofs.Keying
import FilterEditor.Proofs.Phrase

/-!
# Typing filters

Typing the labels of the terms of a filter, one character after the other and with nothing between
them, commits these terms. Between two terms the editor is in one of two states: behind a column or a
value its text is still pending, behind any other term the input is empty. `run_phrase` follows a phrase
from term to term; the next term decides what the pending text becomes.
-/

namespace FilterEditor

/-- The search string that an effect hands on. -/
def Effect.submitted? : Effect → Option Text
  | .submit value => some value
  | _ => none

/-- The search strings that a command hands on. -/
def Command.submissions (c : Command) : List Text := c.effects.filterMap Effect.submitted?

namespace Editor

/-- A filter editor with committed terms and pending text. -/
def pending (s : Settings) (ts : List Term) (p : Text) : Editor :=
  { (new s .filter).restore ts with input := ⟨p, p.length⟩ }

/-- The kind expected behind terms. -/
def expectedBehind (ts : List Term) : Option Kind :=
  ts.getLast?.elim (some .column) Grammar.filter.nextKind

variable {s : Settings} {ts : List Term} {p w : Text} {c : Char} {t : Term} {e : Editor}

lemma pending_expected : (pending s ts p).expected = expectedBehind ts := by
  have eq : (pending s ts p).expected = (new s .filter).expectedAfter ts.getLast? := rfl
  rw [eq, expectedBehind]
  cases ts.getLast? <;> rfl

lemma pending_preview : (pending s ts p).preview = Grammar.filter.previewFor (expectedBehind ts) := by
  rw [← pending_expected (s := s) (p := p)]
  rfl

/-! ## Typing a character -/

lemma pending_edit (accepts : Line.accepts c) :
    (pending s ts p).edit? .input (Line.insertChar? c) = some (pending s ts (p ++ [c])) := by
  have eq : (pending s ts p).edit? .input (Line.insertChar? c) =
      (Line.insertChar? c ⟨p, p.length⟩).map ((pending s ts p).withLine .input) := rfl
  rw [eq, Line.insertChar_end accepts]
  rfl

lemma insertPlain_editor (accepts : Line.accepts c) :
    ((pending s ts p).insertPlain .input c).editor =
      ((pending s ts (p ++ [c])).afterInput).editor := by
  rw [insertPlain, editSlot, pending_edit accepts]
  rfl

/-! ## Committing -/

/-- A pending word is read as a term of the expected kind. -/
lemma reading_word (word : Word w) {k : Kind} (expected : expectedBehind ts = some k)
    (text : k = .column ∨ k = .value) :
    (pending s ts w).reading .input = some (Term.typed w k) := by
  have trimmed : (pending s ts w).input.trimmed = w := word.trim
  have nonempty : (pending s ts w).input.trimmed ≠ [] := by
    rw [trimmed]
    exact word.nonempty
  have grammar : (pending s ts w).grammar = .filter := rfl
  rw [reading_input rfl nonempty, trimmed, grammar, pending_expected, expected]
  rcases text with rfl | rfl <;> simp [Grammar.prepare, Term.typed, word.encode]

lemma exchange_word (word : Word w) {k : Kind} (expected : expectedBehind ts = some k)
    (text : k = .column ∨ k = .value) :
    (pending s ts w).exchange.editor = pending s (ts ++ [Term.typed w k]) [] := by
  unfold exchange
  rw [read?, reading_word word expected text]
  rfl

lemma exchange_empty : (pending s ts []).exchange = (pending s ts []).unchanged := rfl

/-! ## Typing a term -/

lemma insertChar_word (char : isWordChar c) {k : Kind} (expected : expectedBehind ts = some k)
    (text : k = .column ∨ k = .value) :
    ((pending s ts p).insertChar .input c).editor = pending s ts (p ++ [c]) := by
  have typed : (pending s ts p).typedText c = [c] := by
    unfold typedText
    rw [pending_expected, expected]
    rcases text with rfl | rfl <;> rfl
  have ungrouped : (pending s ts p).expected ≠ some .groupingOperator := by
    rw [pending_expected, expected]
    rcases text with rfl | rfl <;> decide
  have options := Grammar.continuations_of_inert (inert_of_isWordChar char) ungrouped
    ((pending s ts p).slotContext .input)
  have preview : (pending s ts (p ++ [c])).preview = none := by
    rw [pending_preview, expected]
    rcases text with rfl | rfl <;> rfl
  have nonblank := isBlank_of_isWordChar char
  rw [insertChar_plain (ne_space_of_nonblank nonblank) (typed ▸ options.1) (typed ▸ options.2),
    insertPlain_editor (accepts_of_nonblank nonblank), afterInput_of_none preview,
    clearSelected_of_empty rfl]
  rfl

lemma run_insertChars_append (e : Editor) (first rest : Text) :
    e.run ((first ++ rest).map .insertChar) =
      (e.run (first.map .insertChar)).run (rest.map .insertChar) := by
  rw [List.map_append, run_append]

lemma run_insertChar (focus : e.focus = .input) (c : Char) :
    e.run [.insertChar c] = (e.insertChar .input c).editor := by
  rw [← focus]
  rfl

lemma run_word (chars : ∀ c ∈ w, isWordChar c) {k : Kind} (expected : expectedBehind ts = some k)
    (text : k = .column ∨ k = .value) :
    (pending s ts p).run (w.map .insertChar) = pending s ts (p ++ w) := by
  induction w generalizing p with
  | nil =>
    rw [List.append_nil]
    rfl
  | cons c rest ih =>
    have first : (pending s ts p).run [.insertChar c] = pending s ts (p ++ [c]) := by
      rw [run_insertChar rfl]
      exact insertChar_word (chars c List.mem_cons_self) expected text
    have split : (c :: rest).map Message.insertChar = [.insertChar c] ++ rest.map .insertChar := rfl
    rw [split, run_append, first, ih fun c hc => chars c (List.mem_cons_of_mem _ hc),
      List.append_assoc]
    rfl

/-- A token of one character commits what is pending and joins the terms. -/
lemma insertChar_single (space : c ≠ ' ') (expected : expectedBehind ts ≠ some .operator)
    (offers : Grammar.filter.continuations [c] (expectedBehind ts) ⟨p, ts.getLast?⟩ = ⟨[t], false⟩)
    (label : t.label = [c]) (empty : expectedBehind ts = t.kind → p = []) :
    ((pending s ts p).insertChar .input c).editor =
      ((pending s ts p).exchange.editor.add t).editor := by
  have typed : (pending s ts p).typedText c = [c] := by
    unfold typedText
    rw [pending_expected, if_neg expected]
  have context : (pending s ts p).slotContext .input = ⟨p, ts.getLast?⟩ := rfl
  have offers : (pending s ts p).grammar.continuations ((pending s ts p).typedText c)
      (pending s ts p).expected ((pending s ts p).slotContext .input) = ⟨[t], false⟩ := by
    rw [typed, context, pending_expected]
    exact offers
  rw [insertChar_token space offers (label.trans typed.symm), pending_expected]
  split
  · rfl
  · rename_i same
    cases empty (not_not.mp same)
    rfl

/-- The first character of an operator with two commits the column before it. -/
lemma insertChar_sign (word : Word w) (expected : expectedBehind ts = some .column)
    (begins : c = '!' ∨ c = '>' ∨ c = '<') :
    ((pending s ts w).insertChar .input c).editor =
      pending s (ts ++ [Term.column w]) [c] := by
  have space : c ≠ ' ' := by rcases begins with rfl | rfl | rfl <;> decide
  have accepts : Line.accepts c := by rcases begins with rfl | rfl | rfl <;> decide
  have longer : (operatorsAndJoiners [c]).isPartial := by
    rcases begins with rfl | rfl | rfl <;> decide
  have typed : (pending s ts w).typedText c = [c] := by
    unfold typedText
    rw [pending_expected, expected]
    rfl
  have nonempty : w.isEmpty = false := List.isEmpty_eq_false_iff.mpr word.nonempty
  have first : ((pending s ts w).grammar.continuations ((pending s ts w).typedText c)
      (pending s ts w).expected ((pending s ts w).slotContext .input)).isPartial := by
    have offered : Grammar.offered [c] (some .column) ⟨w, ts.getLast?⟩ = operatorsAndJoiners [c] := by
      simp [Grammar.offered, nonempty]
    have context : (pending s ts w).slotContext .input = ⟨w, ts.getLast?⟩ := rfl
    have grammar : (pending s ts w).grammar = .filter := rfl
    rw [typed, pending_expected, expected, context, grammar]
    simp only [Grammar.continuations, offered, longer, Bool.true_or, if_true]
  have behind : expectedBehind (ts ++ [Term.column w]) = some .operator := by
    simp [expectedBehind, Grammar.nextKind, Term.column, Term.typed]
  -- The column is committed first, so the character is typed where an operator is expected; there it
  -- begins a longer operator once more and does not bring in the preview.
  rw [insertChar_partial space first, exchange_word word expected (.inl rfl),
    insertPlain_editor accepts]
  have preview : (pending s (ts ++ [Term.typed w .column]) ([] ++ [c])).preview =
      some (Term.operator ['=']) := by
    rw [pending_preview]
    exact (congrArg Grammar.filter.previewFor behind).trans rfl
  have trimmed : (pending s (ts ++ [Term.typed w .column]) ([] ++ [c])).input.trimmed = [c] := by
    rcases begins with rfl | rfl | rfl <;> rfl
  apply afterInput_of_partial preview
  · rw [trimmed]
    rfl
  · simp [hasTerms, Sequence.isEmpty, pending, restore, reposition, Sequence.ofTerms,
      Sequence.withTerms]
  · rw [trimmed, pending_expected]
    have eq : expectedBehind (ts ++ [Term.typed w .column]) = some .operator := behind
    rw [eq]
    rcases begins with rfl | rfl | rfl <;> rfl

/-- The last character of an operator with two completes it. -/
lemma insertChar_signEnd (expected : expectedBehind ts = some .operator)
    (begins : c = '!' ∨ c = '>' ∨ c = '<') :
    ((pending s ts [c]).insertChar .input '=').editor =
      pending s (ts ++ [Term.operator [c, '=']]) [] := by
  have typed : (pending s ts [c]).typedText '=' = [c, '='] := by
    unfold typedText
    rw [pending_expected, expected]
    rcases begins with rfl | rfl | rfl <;> rfl
  have offers : (pending s ts [c]).grammar.continuations ((pending s ts [c]).typedText '=')
      (pending s ts [c]).expected ((pending s ts [c]).slotContext .input) =
        ⟨[Term.operator [c, '=']], false⟩ := by
    rw [typed, pending_expected, expected]
    rcases begins with rfl | rfl | rfl <;> rfl
  rw [insertChar_token (by decide) offers typed.symm, pending_expected, expected]
  rfl

/-! ## Typing a phrase -/

/-- The editor once the labels of a phrase were typed: its last term is pending if it is a word. -/
def reached (s : Settings) (ts : List Term) : Option Role → Editor
  | some .column | some .value =>
    pending s ts.dropLast ((ts.getLast?.map (·.label)).getD [])
  | _ => pending s ts []

variable {r : Option Role}

lemma reached_focus (r : Option Role) : (reached s ts r).focus = .input := by
  cases r with
  | none => rfl
  | some r => cases r <;> rfl

lemma expectedBehind_phrase (h : Phrase r ts) : expectedBehind ts = some (Role.next r) := by
  cases h with
  | nil => rfl
  | joiner _ _ connective =>
    rw [expectedBehind, List.getLast?_concat]
    cases connective <;> rfl
  | _ =>
    rw [expectedBehind, List.getLast?_concat]
    rfl

/-- Where a condition may start, nothing is pending and a column is expected. -/
lemma reached_starts (h : Phrase r ts) (starts : Role.starts r) :
    reached s ts r = pending s ts [] ∧ expectedBehind ts = some .column := by
  have expected := expectedBehind_phrase h
  cases r with
  | none => exact ⟨rfl, expected⟩
  | some r => cases r <;> first | exact ⟨rfl, expected⟩ | cases starts

lemma reached_column (h : Phrase (some .column) ts) :
    ∃ before w, ts = before ++ [Term.column w] ∧ Word w ∧ expectedBehind before = some .column ∧
      reached s ts (some .column) = pending s before w := by
  cases h with
  | @column _ before w phrase starts word =>
    refine ⟨before, w, rfl, word, (reached_starts (s := s) phrase starts).2, ?_⟩
    rw [reached, List.dropLast_concat, List.getLast?_concat]
    rfl

lemma reached_value (h : Phrase (some .value) ts) :
    ∃ before w, ts = before ++ [Term.value w] ∧ Word w ∧ expectedBehind before = some .value ∧
      reached s ts (some .value) = pending s before w := by
  cases h with
  | @value before w phrase word =>
    refine ⟨before, w, rfl, word, expectedBehind_phrase phrase, ?_⟩
    rw [reached, List.dropLast_concat, List.getLast?_concat]
    rfl

/-- Where a filter may end, what is pending completes the phrase. -/
lemma exchange_reached (h : Phrase r ts) (ends : r = none ∨ Role.ends r) :
    (reached s ts r).exchange.editor = pending s ts [] := by
  cases r with
  | none => rfl
  | some r =>
    cases r with
    | column =>
      obtain ⟨before, w, rfl, word, expected, eq⟩ := reached_column (s := s) h
      rw [eq]
      exact exchange_word word expected (.inl rfl)
    | value =>
      obtain ⟨before, w, rfl, word, expected, eq⟩ := reached_value (s := s) h
      rw [eq]
      exact exchange_word word expected (.inr rfl)
    | _ => rfl

/-- Behind a whole condition, a joiner or a closing parenthesis is taken at once. -/
lemma insertChar_joiner (h : Phrase r ts) (ends : Role.ends r) (ht : t ∈ joiners)
    (label : t.label = [c]) :
    ((reached s ts r).insertChar .input c).editor = pending s (ts ++ [t]) [] := by
  have space : c ≠ ' ' := by
    rintro rfl
    exact (by decide : ∀ t ∈ joiners, t.label ≠ [' ']) t ht label
  obtain ⟨no_column, no_value⟩ : t.kind ≠ some .column ∧ t.kind ≠ some .value :=
    (by decide : ∀ t ∈ joiners, t.kind ≠ some .column ∧ t.kind ≠ some .value) t ht
  have committed := exchange_reached (s := s) h (.inr ends)
  cases r with
  | none => cases ends
  | some r =>
    cases r with
    | column =>
      obtain ⟨before, w, rfl, word, expected, eq⟩ := reached_column (s := s) h
      rw [eq] at committed ⊢
      rw [insertChar_single space (t := t), committed]
      · rfl
      · rw [expected]
        decide
      · rw [expected, ← label]
        exact Grammar.continuations_joiner ht (.inl ⟨rfl, word.nonempty⟩)
      · exact label
      · rw [expected]
        exact fun same => (no_column same.symm).elim
    | value =>
      obtain ⟨before, w, rfl, word, expected, eq⟩ := reached_value (s := s) h
      rw [eq] at committed ⊢
      rw [insertChar_single space (t := t), committed]
      · rfl
      · rw [expected]
        decide
      · rw [expected, ← label]
        exact Grammar.continuations_joiner ht (.inr (.inl rfl))
      · exact label
      · rw [expected]
        exact fun same => (no_value same.symm).elim
    | closing =>
      have expected : expectedBehind ts = some .logicalOperator := expectedBehind_phrase h
      have eq : reached s ts (some .closing) = pending s ts [] := rfl
      rw [eq] at committed ⊢
      rw [insertChar_single space (t := t), committed]
      · rfl
      · rw [expected]
        decide
      · rw [expected, ← label]
        exact Grammar.continuations_joiner ht (.inr (.inr rfl))
      · exact label
      -- A logical operator is expected here and taken as such: nothing is pending to be committed.
      · exact fun _ => rfl
    | _ => cases ends

/-- A parenthesis is opened at the start and behind a logical operator. -/
lemma insertChar_opening (h : Phrase r ts) (nests : Role.nests r) :
    ((reached s ts r).insertChar .input '(').editor = pending s (ts ++ [Term.groupOpen]) [] := by
  obtain ⟨eq, expected⟩ := reached_starts (s := s) h (Role.starts_of_nests nests)
  rw [eq, insertChar_single (t := Term.groupOpen) (by decide), exchange_empty]
  · rfl
  · rw [expected]
    decide
  · rw [expected]
    cases h with
    | nil => rfl
    | joiner _ _ connective =>
      rw [List.getLast?_concat]
      cases connective <;> rfl
    | _ => cases nests
  · rfl
  · exact fun _ => rfl

lemma run_sign (h : Phrase (some .column) ts) {sign : Text} (complete : sign ∈ completeSigns) :
    (reached s ts (some .column)).run (sign.map .insertChar) =
      pending s (ts ++ [Term.operator sign]) [] := by
  obtain ⟨before, w, rfl, word, expected, eq⟩ := reached_column (s := s) h
  have behind := expectedBehind_phrase h
  rw [eq]
  have double : ∀ c, c = '!' ∨ c = '>' ∨ c = '<' →
      (pending s before w).run (([c, '='] : Text).map .insertChar) =
        pending s (before ++ [Term.column w] ++ [Term.operator [c, '=']]) [] := by
    intro c begins
    have split : ([c, '='] : Text).map Message.insertChar = [.insertChar c] ++ [.insertChar '='] :=
      rfl
    have first : (pending s before w).run [.insertChar c] =
        ((pending s before w).insertChar .input c).editor := run_insertChar rfl c
    rw [split, run_append, first, insertChar_sign word expected begins, run_insertChar rfl,
      insertChar_signEnd behind begins]
  have nonempty : w.isEmpty = false := List.isEmpty_eq_false_iff.mpr word.nonempty
  simp only [completeSigns, List.mem_cons, List.not_mem_nil, or_false] at complete
  rcases complete with rfl | rfl | rfl | rfl
  -- The equals sign is whole at once; the others wait for it behind their first character.
  · have run : (pending s before w).run (['='].map .insertChar) =
        ((pending s before w).insertChar .input '=').editor := run_insertChar rfl '='
    rw [run, insertChar_single (t := Term.operator ['=']) (by decide),
      exchange_word word expected (.inl rfl)]
    · rfl
    · rw [expected]
      decide
    · rw [expected]
      have offered : Grammar.offered ['='] (some .column) ⟨w, before.getLast?⟩ =
          operatorsAndJoiners ['='] := by
        simp [Grammar.offered, nonempty]
      simp only [Grammar.continuations, offered]
      rfl
    · rfl
    · rw [expected]
      intro same
      cases same
  · exact double '!' (.inl rfl)
  · exact double '>' (.inr (.inl rfl))
  · exact double '<' (.inr (.inr rfl))

/-- Typing the labels of a phrase leads to its terms. -/
lemma run_phrase (h : Phrase r ts) :
    (new s .filter).run ((ts.flatMap (·.label)).map .insertChar) = reached s ts r := by
  -- Each case types one more term into the state that the phrase before it has reached.
  induction h with
  | nil => rfl
  | @column r ts w before starts word ih =>
    obtain ⟨eq, expected⟩ := reached_starts (s := s) before starts
    rw [List.flatMap_append, run_insertChars_append, ih, eq, List.flatMap_singleton]
    have typed := run_word (s := s) (p := []) word.chars expected (.inl rfl)
    rw [reached, List.dropLast_concat, List.getLast?_concat]
    exact typed
  | @operator ts sign before complete ih =>
    rw [List.flatMap_append, run_insertChars_append, ih, List.flatMap_singleton]
    exact run_sign before complete
  | @value ts w before word ih =>
    rw [List.flatMap_append, run_insertChars_append, ih, List.flatMap_singleton]
    have typed := run_word (s := s) (p := []) word.chars (expectedBehind_phrase before) (.inr rfl)
    rw [reached, List.dropLast_concat, List.getLast?_concat]
    exact typed
  | @joiner r ts before ends connective ih =>
    rw [List.flatMap_append, run_insertChars_append, ih, List.flatMap_singleton]
    have mem : connective.term ∈ joiners := by cases connective <;> decide
    have label : ∃ c, connective.term.label = [c] := by cases connective <;> exact ⟨_, rfl⟩
    obtain ⟨c, label⟩ := label
    rw [label]
    exact (run_insertChar (reached_focus r) c).trans (insertChar_joiner before ends mem label)
  | @opening r ts before nests ih =>
    rw [List.flatMap_append, run_insertChars_append, ih, List.flatMap_singleton]
    exact (run_insertChar (reached_focus r) '(').trans (insertChar_opening before nests)
  | @closing r ts before ends ih =>
    rw [List.flatMap_append, run_insertChars_append, ih, List.flatMap_singleton]
    have mem : Term.groupClose ∈ joiners := by decide
    exact (run_insertChar (reached_focus r) ')').trans (insertChar_joiner before ends mem rfl)

/-! ## Submitting -/

/-- Committing hands nothing on. -/
lemma submitted_exchange (e : Editor) : ∀ effect ∈ e.exchange.effects, effect.submitted? = none := by
  have h := exchange_cases e
  generalize e.exchange = c at h
  cases h with
  | blank => nofun
  | added => simp [add, previewEffects, Effect.submitted?]

/-- Submitting commits what is pending and hands on the search string, once. -/
lemma submit_eq (e : Editor) :
    ∃ required, (e.update .submit).1 = { e.exchange.editor with required } ∧
      (e.update .submit).2.submissions = [e.exchange.editor.serialized] := by
  obtain ⟨required, eq, marks⟩ := markRequired_eq e.exchange.editor
  refine ⟨required, eq, ?_⟩
  have silent : ∀ effect ∈ e.exchange.editor.markRequired.effects, effect.submitted? = none := by
    intro effect h
    rw [marks effect h]
    rfl
  have effects : (e.respond .submit).effects =
      e.exchange.effects ++ e.exchange.editor.placeholderEffects ++
        e.exchange.editor.markRequired.effects ++
          [.submit e.exchange.editor.markRequired.editor.serialized] := rfl
  have command : (e.update .submit).2.effects = (e.respond .submit).effects :=
    Command.effects_ofEffects _
  have placeholder : ∀ effect ∈ e.exchange.editor.placeholderEffects, effect.submitted? = none := by
    intro effect h
    cases List.mem_singleton.mp h
    rfl
  rw [Command.submissions, command, effects, List.filterMap_append, List.filterMap_append,
    List.filterMap_append, List.filterMap_eq_nil_iff.mpr (submitted_exchange e),
    List.filterMap_eq_nil_iff.mpr placeholder, List.filterMap_eq_nil_iff.mpr silent, eq]
  rfl

/-- Typing the labels of the terms of a filter into an empty editor and submitting leaves these terms
and an empty input, and hands on their search string. -/
theorem submit_typed_terms (s : Settings) {tree : Tree} (h : tree.Typable) :
    let typed := (new s .filter).run ((tree.terms.flatMap (·.label)).map .insertChar)
    (typed.update .submit).1.terms.terms = tree.terms ∧
      (typed.update .submit).1.input = {} ∧
      (typed.update .submit).2.submissions = [joinSearch tree.terms s.separator] := by
  intro typed
  obtain ⟨r, ends, phrase⟩ := Tree.phrase_terms h
  have reached : typed.exchange.editor = pending s tree.terms [] := by
    have eq : typed = reached s tree.terms r := run_phrase phrase
    rw [eq]
    exact exchange_reached phrase ends
  obtain ⟨required, editor, submissions⟩ := submit_eq typed
  rw [editor, submissions, reached]
  exact ⟨rfl, rfl, rfl⟩

/-- A condition and a nested chain, typed and submitted. -/
theorem submit_typed_nested :
    let tree := Tree.chain .all [.condition ⟨['a'], ['>', '='], .text ['1'], none⟩,
      .chain .any [.condition ⟨['b'], ['='], .flag true, none⟩,
        .condition ⟨['c'], ['='], .text ['*'], none⟩]]
    let typed := (new {} .filter).run ((tree.terms.flatMap (·.label)).map .insertChar)
    tree.Typable ∧ (typed.update .submit).1.terms.terms = tree.terms ∧
      (typed.update .submit).1.input = {} ∧
      (typed.update .submit).2.submissions = [joinSearch tree.terms [' ']] := by
  intro tree typed
  have typable : tree.Typable := by
    simp only [tree, Tree.Typable, Tree.AllNestable, Tree.Nestable]
    refine ⟨⟨Word.single rfl, ?_, rfl, by decide⟩, ⟨rfl, ⟨Word.single rfl, ?_, rfl, by decide⟩,
      ⟨Word.single rfl, ?_, rfl, by decide⟩, trivial⟩, trivial⟩
    all_goals
      intro text eq
      cases eq
    · exact Word.single rfl
    · exact Word.single rfl
  exact ⟨typable, submit_typed_terms {} typable⟩

end Editor
end FilterEditor
