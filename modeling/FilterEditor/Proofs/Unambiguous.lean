import FilterEditor.Proofs.Keying
import FilterEditor.Proofs.Legible
import FilterEditor.Proofs.Percent
import Mathlib.Data.List.Infix

/-!
# Unambiguous search strings

The search string of a typed filter says what its terms are, whatever was typed: columns and values
are percent-encoded on their way into a term, and everything else that typing commits is a token, or
the `!` that starts one. None of these has a space, so the spaces of the search string are its
separators.

The point is what may be pending where a token is expected, since a term of that kind is committed as
it was typed. There the input is blank or `Fits`: typing either commits the preview before a text that
is no token, or waits while the text begins a longer one.
-/

namespace FilterEditor

/-! ## Reading a search string back -/

/-- Where no search has a blank, the words of a search string are the searches. -/
lemma words_joinSearch {terms : List Term} (nonempty : ∀ t ∈ terms, t.search ≠ [])
    (chars : ∀ t ∈ terms, ∀ c ∈ t.search, Text.isBlank c = false) :
    (joinSearch terms [' ']).words = terms.map (·.search) := by
  apply words_joinSearch_iff.mpr
  refine ⟨fun t ht space => ?_, fun t ht => ?_, fun t ht => ?_⟩
  · exact nomatch chars t ht ' ' space
  · have mem := List.mem_of_mem_head? ht
    exact ⟨_, List.head?_eq_some_head (nonempty t mem), chars t mem _ (List.head_mem _)⟩
  · have mem := List.mem_of_getLast? ht
    exact ⟨_, List.getLast?_eq_some_getLast (nonempty t mem), chars t mem _ (List.getLast_mem _)⟩

/-! ## Terms -/

/-- The relational operators, and the start of one that is none itself. -/
def operatorTexts : List Text := ['!'] :: Term.relationalOperators.map (·.label)

def connectiveTexts : List Text := Term.logicalOperators.map (·.label)

/-- Whether a text may be committed as it is where that kind is expected. -/
def Fits : Option Kind → Text → Prop
  | some .operator, text => text ∈ operatorTexts
  | some .logicalOperator, text => text ∈ connectiveTexts
  | _, _ => True

/-- A term as typing commits it. -/
def Term.Written (t : Term) : Prop :=
  match t.kind with
  | some .column | some .value => t.label ≠ [] ∧ t.search = Percent.encode t.label
  | some .operator => t.search ∈ operatorTexts
  | some .logicalOperator => t.search ∈ connectiveTexts
  | some .groupingOperator => t.search = ['('] ∨ t.search = [')']
  | none => False

/-- A term whose search, by its kind, cannot be taken for anything else. -/
structure Term.Unambiguous (t : Term) : Prop where
  typed : t.kind.isSome
  nonempty : t.search ≠ []
  spaceless : ' ' ∉ t.search
  encoded : t.kind = some .column ∨ t.kind = some .value →
    (∀ c ∈ t.search, Percent.isLiteral c ∨ c = '%') ∧ Percent.decode? t.search = some t.label
  operator : t.kind = some .operator →
    t.search = ['!'] ∨ t.search ∈ Term.relationalOperators.map (·.label)
  logical : t.kind = some .logicalOperator → t.search = ['&'] ∨ t.search = ['|']
  grouping : t.kind = some .groupingOperator → t.search = ['('] ∨ t.search = [')']

namespace Term

variable {t : Term}

lemma written_of_tokens (h : t ∈ tokens) : t.Written := by
  have sorts : ∀ t ∈ tokens,
      t.kind = some .operator ∧ t.search ∈ operatorTexts ∨
        t.kind = some .logicalOperator ∧ t.search ∈ connectiveTexts ∨
        t.kind = some .groupingOperator ∧ (t.search = ['('] ∨ t.search = [')']) := by
    decide
  rcases sorts t h with ⟨kind, search⟩ | ⟨kind, search⟩ | ⟨kind, search⟩ <;>
    simpa only [Written, kind] using search

/-- What is committed as it was typed is written once it fits. -/
lemma written_prepare {text : Text} {kind : Option Kind} (nonempty : text ≠ [])
    (fits : Fits kind text)
    (expected : kind = some .column ∨ kind = some .operator ∨ kind = some .value ∨
      kind = some .logicalOperator) :
    (Grammar.filter.prepare ⟨text, text, none, kind⟩).Written := by
  rcases expected with rfl | rfl | rfl | rfl
  · exact ⟨nonempty, rfl⟩
  · exact fits
  · exact ⟨nonempty, rfl⟩
  · exact fits

/-- A written search has a character, and no blank. -/
lemma Written.search (h : t.Written) :
    t.search ≠ [] ∧ ∀ c ∈ t.search, Text.isBlank c = false := by
  have tokens : ∀ text ∈ operatorTexts ++ connectiveTexts ++ [['('], [')']],
      text ≠ [] ∧ text.all fun c => !Text.isBlank c := by
    decide
  have token (text : Text) (h : text ∈ operatorTexts ++ connectiveTexts ++ [['('], [')']]) :
      text ≠ [] ∧ ∀ c ∈ text, Text.isBlank c = false :=
    ⟨(tokens text h).1, by simpa using (tokens text h).2⟩
  have encoded (text : Text) (nonempty : text ≠ []) :
      Percent.encode text ≠ [] ∧ ∀ c ∈ Percent.encode text, Text.isBlank c = false :=
    ⟨Percent.encode_ne_nil nonempty, fun _ => Percent.isBlank_of_mem_encode⟩
  unfold Written at h
  split at h
  · rw [h.2]
    exact encoded t.label h.1
  · rw [h.2]
    exact encoded t.label h.1
  · exact token t.search (List.mem_append_left _ (List.mem_append_left _ h))
  · exact token t.search (List.mem_append_left _ (List.mem_append_right _ h))
  · exact token t.search (List.mem_append_right _ (by simpa using h))
  · exact h.elim

lemma Written.unambiguous (h : t.Written) : t.Unambiguous where
  typed := by
    cases kind : t.kind with
    | none =>
      simp only [Written, kind] at h
    | some => rfl
  nonempty := h.search.1
  spaceless space := nomatch h.search.2 ' ' space
  encoded kind := by
    have search : t.search = Percent.encode t.label := by
      rcases kind with kind | kind <;> simp only [Written, kind] at h <;> exact h.2
    rw [search]
    exact ⟨Percent.chars_encode t.label, Percent.decode_encode t.label⟩
  operator kind := by
    simp only [Written, kind] at h
    exact List.mem_cons.mp h
  logical kind := by
    simp only [Written, kind] at h
    simpa [connectiveTexts, logicalOperators, Term.logical, token] using h
  grouping kind := by
    simpa only [Written, kind] using h

end Term

/-! ## What may be pending -/

namespace Grammar

/-- The start of a longer operator may be committed as an operator. -/
lemma fits_of_extending {typed : Text} (h : extendingOperators typed ≠ []) :
    typed ∈ operatorTexts := by
  have texts : ∀ text ∈ ["!".toList, "<".toList, ">".toList], text ∈ operatorTexts := by decide
  exact texts typed (extendingOperators_ne_nil_iff.mp h)

lemma fits_of_partial {typed : Text} {expected : Option Kind} {context : Context}
    (h : (filter.continuations typed expected context).isPartial) : Fits expected typed := by
  have operators (h : (operatorsAndJoiners typed).isPartial) : typed ∈ operatorTexts := by
    unfold operatorsAndJoiners at h
    split at h
    · cases h
    · rename_i longer
      exact fits_of_extending longer
  have all : (offered typed expected context).isPartial := by
    simp only [continuations] at h
    split at h
    · exact h
    · split at h
      · cases h
      · exact h
  unfold offered at all
  split at all
  · cases all
  · trivial
  · exact operators all
  · trivial
  · cases all
  · trivial

end Grammar

namespace Editor

variable {e e' : Editor} {t : Term}

/-- An editor whose terms are as typing commits them. -/
structure Composed (e : Editor) : Prop where
  wellFormed : e.WellFormed
  grammar : e.grammar = .filter
  written : ∀ t ∈ e.terms.terms, t.Written

/-- What is pending may be committed. -/
def Fitting (e : Editor) : Prop := e.input.trimmed = [] ∨ Fits e.expected e.input.trimmed

/-- The label of the preview may be committed where the preview is. -/
lemma Previewed.fits (h : e.Previewed) (previewed : e.preview = some t) :
    Fits e.expected t.label := by
  have some : e.preview.isSome := by rw [previewed]; rfl
  rcases h.isSome_iff.mp some with expected | expected <;> rw [expected]
  · exact List.mem_cons_of_mem _ (List.mem_map_of_mem (h.operator expected t previewed))
  · exact List.mem_map_of_mem (h.logical expected t previewed)

lemma Composed.add (h : e.Composed) (ht : t.Written) : (e.add t).editor.Composed where
  wellFormed := by
    have step : Step .editing e false (e.add t) := .add fun _ => ht.unambiguous.typed
    exact step.wellFormed h.wellFormed
  grammar := h.grammar
  written x hx := by
    rcases List.mem_append.mp hx with hx | hx
    · exact h.written x hx
    · cases List.mem_singleton.mp hx
      exact ht

lemma expected_add (e : Editor) (t : Term) :
    (e.add t).editor.expected = e.grammar.nextKind t := by
  have last : (e.terms.push t).last? = some t := List.getLast?_concat
  have eq : (e.add t).editor.expected = e.expectedAfter (e.terms.push t).last? := rfl
  rw [eq, last]
  rfl

/-- Behind a preview a column or a value is expected. -/
lemma expected_confirm (h : e.WellFormed) (grammar : e.grammar = .filter)
    (previewed : e.preview = some t) :
    (e.add t).editor.expected = some .value ∨ (e.add t).editor.expected = some .column := by
  have values : ∀ t ∈ Term.relationalOperators, Grammar.filter.nextKind t = some .value := by decide
  have columns : ∀ t ∈ Term.logicalOperators, Grammar.filter.nextKind t = some .column := by decide
  have some : e.preview.isSome := by rw [previewed]; rfl
  rw [expected_add, grammar]
  rcases h.previewed.isSome_iff.mp some with expected | expected
  · exact .inl (values t (h.previewed.operator expected t previewed))
  · exact .inr (columns t (h.previewed.logical expected t previewed))

/-- Behind a preview any text may stay pending. -/
lemma Composed.confirm (h : e.Composed) (previewed : e.preview = some t) :
    (e.add t).editor.Composed ∧ (e.add t).editor.Fitting := by
  refine ⟨h.add (Term.written_of_tokens (h.wellFormed.previewed.token previewed)), .inr ?_⟩
  rcases expected_confirm h.wellFormed h.grammar previewed with expected | expected <;> rw [expected]
  · trivial
  · trivial

/-- A pending text that fits is read as a term that typing may commit. -/
lemma Composed.written_reading (h : e.Composed) (trailing : e.Trailing) (fitting : e.Fitting)
    (read : e.reading .input = some t) : t.Written := by
  have nonempty : e.input.trimmed ≠ [] := (reading_text read).1
  rw [reading_input trailing.carried nonempty, h.grammar] at read
  cases read
  exact Term.written_prepare nonempty (fitting.resolve_left nonempty)
    (h.wellFormed.typed.expected h.grammar)

lemma Composed.exchange (h : e.Composed) (trailing : e.Trailing) (fitting : e.Fitting) :
    e.exchange.editor.Composed := by
  have trace : Trace .editing e e.exchange := trace_exchange e
  have wellFormed := trace.invariant (fun _ _ _ step => step.wellFormed) h.wellFormed
  have cases := exchange_cases e
  generalize e.exchange = c at cases wellFormed
  cases cases with
  | blank => exact h
  | @added t read =>
    refine ⟨wellFormed, h.grammar, fun x hx => ?_⟩
    rcases List.mem_append.mp hx with hx | hx
    · exact h.written x hx
    · cases List.mem_singleton.mp hx
      exact h.written_reading trailing fitting read

lemma Composed.followed (h : e.Composed) (trailing : e.Trailing) (followed : Followed e e') :
    e'.Composed ∧ e'.Fitting := by
  cases followed with
  | waiting waits =>
    refine ⟨h, ?_⟩
    rcases waits with none | blank | bare | begins
    · -- Without a preview neither an operator nor a connective is expected.
      have unexpected := mt h.wellFormed.previewed.isSome_iff.mpr (by rw [none]; nofun)
      right
      rcases h.wellFormed.typed.expected h.grammar with expected | expected | expected | expected
      · rw [expected]; trivial
      · exact (unexpected (.inl expected)).elim
      · rw [expected]; trivial
      · exact (unexpected (.inr expected)).elim
    · exact .inl blank
    · right
      rw [h.wellFormed.typed.initial bare, h.grammar]
      trivial
    · rw [h.grammar] at begins
      exact .inr (Grammar.fits_of_partial begins)
  | previewed preview => exact h.confirm preview
  | exchanged preview same =>
    have fits : e.Fitting := .inr (same ▸ h.wellFormed.previewed.fits preview)
    exact ⟨h.exchange trailing fits, .inl (exchange_blank e)⟩

/-- What a character completes is a token: no slot of the trailing input is between parentheses. -/
lemma token_of_offers (grammar : e.grammar = .filter) (typed : e.Typed) {text : Text}
    (offers : e.grammar.continuations text e.expected (e.slotContext .input) = ⟨[t], false⟩) :
    t ∈ Term.tokens := by
  have mem : t ∈ (e.grammar.continuations text e.expected (e.slotContext .input)).terms := by
    rw [offers]
    exact List.mem_singleton.mpr rfl
  rcases Grammar.mem_offered (Grammar.mem_offered_of_continuations mem) with token | ⟨grouped, _⟩
  · exact token
  · rcases typed.expected grammar with expected | expected | expected | expected <;>
      cases expected.symm.trans grouped

/-- Every keystroke commits terms as typing does, and leaves pending what may be committed. -/
lemma Keyed.composed (h : Keyed e e') (trailing : e.Trailing) (he : e.Composed)
    (fitting : e.Fitting) : e'.Composed ∧ e'.Fitting := by
  have wellFormed : e'.WellFormed := h.invariant (fun _ _ _ step => step.wellFormed) he.wellFormed
  cases h with
  | exchange => exact ⟨he.exchange trailing fitting, .inl (exchange_blank e)⟩
  | confirm previewed => exact he.confirm previewed
  | @complete c t offers label =>
    have token := token_of_offers he.grammar he.wellFormed.typed offers
    have written := Term.written_of_tokens token
    split
    · exact ⟨(he.exchange trailing fitting).add written, .inl (exchange_blank e)⟩
    · have step : Step .editing e true _ := .clear
      have cleared : ({ e with input := {} } : Editor).Composed :=
        ⟨step.wellFormed he.wellFormed, he.grammar, he.written⟩
      exact ⟨cleared.add written, .inl rfl⟩
  | edit keeps edited followed =>
    have step : Step .editing e true _ := .write keeps edited
    have wellFormed := step.wellFormed he.wellFormed
    have trailing := trailing.edit edited
    obtain ⟨line, _, rfl⟩ := edit_input edited
    exact Composed.followed ⟨wellFormed, he.grammar, he.written⟩ trailing followed
  | move keeps still edited =>
    obtain ⟨line, moved, rfl⟩ := edit_input edited
    have trimmed : line.trimmed = e.input.trimmed := congrArg Text.trim (still _ _ moved)
    refine ⟨⟨wellFormed, he.grammar, he.written⟩, ?_⟩
    rcases fitting with blank | fits
    · exact .inl (trimmed.trans blank)
    · exact .inr (trimmed ▸ fits)
  | pop empty =>
    have blank : e.input.trimmed = [] := congrArg Text.trim (List.isEmpty_iff.mp empty)
    rcases pop_cases trailing.focus with eq | eq <;> rw [eq] at wellFormed ⊢
    · exact ⟨he, fitting⟩
    · refine ⟨⟨wellFormed, he.grammar, fun t ht => ?_⟩, .inl blank⟩
      exact he.written t (List.mem_of_mem_eraseIdx ht)
  | cycle => exact ⟨⟨wellFormed, he.grammar, he.written⟩, fitting⟩
  | require => exact ⟨⟨wellFormed, he.grammar, he.written⟩, fitting⟩

lemma composed_run (s : Settings) {messages : List Message}
    (typing : ∀ message ∈ messages, message.isTyping) :
    ((new s .filter).run messages).Composed := by
  have started : (new s .filter).Composed := ⟨(Started.new s .filter).wellFormed, rfl, nofun⟩
  refine (typing_invariant (P := fun e => e.Composed ∧ e.Fitting) ?_ typing ⟨rfl, rfl, rfl⟩
    ⟨started, .inl rfl⟩).1
  exact fun e e' trailing key he => key.composed trailing he.1 he.2

/-- After any typing into an empty filter every term is unambiguous, and the words of the search
string are the searches of the terms. -/
theorem words_typed (s : Settings) (separator : s.separator = [' ']) {messages : List Message}
    (typing : ∀ message ∈ messages, message.isTyping) :
    (∀ t ∈ ((new s .filter).run messages).terms.terms, t.Unambiguous) ∧
      ((new s .filter).run messages).serialized.words =
        ((new s .filter).run messages).terms.terms.map (·.search) := by
  have composed := composed_run s typing
  refine ⟨fun t ht => (composed.written t ht).unambiguous, ?_⟩
  have settings := (frame_run (new s .filter) messages).1
  have serialized := composed.wellFormed.joined.serialized_eq
  rw [settings, show (new s .filter).settings.separator = [' '] from separator] at serialized
  rw [Editor.serialized, serialized]
  exact words_joinSearch (fun t ht => (composed.written t ht).search.1)
    fun t ht => (composed.written t ht).search.2

/-- A letter beyond ASCII, half an operator and a parenthesis as a value. -/
theorem words_typed_escaped :
    let messages : List Message := [.insertText "é!", .submit, .insertChar '(', .exchange]
    let e := (new {} .filter).run messages
    ({} : Settings).separator = [' '] ∧ (∀ message ∈ messages, message.isTyping) ∧
      (∀ t ∈ e.terms.terms, t.Unambiguous) ∧
      e.serialized.words = e.terms.terms.map (·.search) ∧
      e.terms.terms.map (·.search) = ["%C3%A9".toList, ['!'], "%28".toList] := by
  intro messages e
  have typing : ∀ message ∈ messages, message.isTyping := by decide
  obtain ⟨unambiguous, words⟩ := words_typed {} rfl typing
  exact ⟨rfl, typing, unambiguous, words, by decide⟩

end Editor
end FilterEditor
