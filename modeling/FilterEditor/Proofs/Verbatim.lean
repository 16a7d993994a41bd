import FilterEditor.Proofs.Keying

/-!
# Free text

The plain grammar has no tokens and previews none. So what is typed goes into the trailing input as it
is, whatever the characters mean elsewhere, with two exceptions: no line takes line breaks, and an empty
input takes a space for the wish to commit the preview, and there is none (`typedBehind`). Both leave the
text without white space at its ends as it was, so this is the text that is committed.
-/

namespace FilterEditor

/-- The text of a line of free text after a character is typed behind it. -/
def typedBehind (text : Text) (c : Char) : Text :=
  if Line.accepts c ∧ ¬ (c = ' ' ∧ text = []) then text ++ [c] else text

variable {c : Char} {s text : Text}

/-! ## Texts -/

/-- Behind other text everything but line breaks is kept. -/
lemma foldl_typedBehind_append (nonempty : text ≠ []) :
    s.foldl typedBehind text = text ++ s.filter Line.accepts := by
  induction s generalizing text with
  | nil => exact (List.append_nil text).symm
  | cons c rest ih =>
    rw [List.foldl_cons]
    by_cases accepts : Line.accepts c
    · have typed : typedBehind text c = text ++ [c] :=
        if_pos ⟨accepts, fun blank => nonempty blank.2⟩
      rw [typed, ih (by simp), List.filter_cons_of_pos accepts, List.append_assoc]
      rfl
    · have refused : typedBehind text c = text := if_neg fun typed => accepts typed.1
      rw [refused, ih nonempty, List.filter_cons_of_neg accepts]

/-- Typing a text leaves out its line breaks and the spaces in front of everything else. -/
lemma foldl_typedBehind (s : Text) :
    s.foldl typedBehind [] = (s.filter Line.accepts).dropWhile (· = ' ') := by
  induction s with
  | nil => rfl
  | cons c rest ih =>
    rw [List.foldl_cons]
    by_cases accepts : Line.accepts c
    · rw [List.filter_cons_of_pos accepts]
      by_cases space : c = ' '
      · have skipped : typedBehind [] c = [] := if_neg fun typed => typed.2 ⟨space, rfl⟩
        rw [skipped, ih, List.dropWhile_cons_of_pos (by simpa using space)]
      · have typed : typedBehind [] c = [c] := if_pos ⟨accepts, fun blank => space blank.1⟩
        rw [typed, foldl_typedBehind_append (List.cons_ne_nil c []),
          List.dropWhile_cons_of_neg (by simpa using space)]
        rfl
    · have refused : typedBehind [] c = [] := if_neg fun typed => accepts typed.1
      rw [refused, ih, List.filter_cons_of_neg accepts]

/-- Spaces in front are trimmed off anyway. -/
lemma trim_dropWhile_space (text : Text) :
    Text.trim (text.dropWhile (· = ' ')) = Text.trim text := by
  have start : Text.trimStart (text.dropWhile (· = ' ')) = Text.trimStart text := by
    induction text with
    | nil => rfl
    | cons c rest ih =>
      by_cases space : c = ' '
      · have blank : Text.isBlank c := space ▸ rfl
        have skipped : (c :: rest).dropWhile (· = ' ') = rest.dropWhile (· = ' ') :=
          List.dropWhile_cons_of_pos (by simpa using space)
        rw [skipped, ih]
        exact (List.dropWhile_cons_of_pos blank).symm
      · have kept : (c :: rest).dropWhile (· = ' ') = c :: rest :=
          List.dropWhile_cons_of_neg (by simpa using space)
        rw [kept]
  rw [Text.trim, start, Text.trim]

namespace Editor

variable {e : Editor}

/-- An editor for free text whose trailing input is typed into, with nothing selected, carried, expected
or previewed. -/
structure Free (e : Editor) : Prop where
  grammar : e.grammar = .plain
  focus : e.focus = .input
  selected : e.selected = []
  carried : e.carried = none
  expected : e.expected = none
  preview : e.preview = none

/-- The editor with a text in its trailing input and the cursor behind it. -/
def holding (text : Text) (e : Editor) : Editor := { e with input := ⟨text, text.length⟩ }

lemma Free.holding (h : e.Free) (text : Text) : (e.holding text).Free :=
  ⟨h.grammar, h.focus, h.selected, h.carried, h.expected, h.preview⟩

/-! ## Typing -/

/-- Nothing follows an edit of free text. -/
lemma Free.afterInput (h : e.Free) : e.afterInput.editor = e := by
  rw [afterInput_of_none h.preview, clearSelected_of_empty h.selected]
  rfl

/-- A character goes behind the text, unless it is a line break. -/
lemma Free.insertPlain (h : e.Free) (text : Text) (c : Char) :
    ((e.holding text).insertPlain .input c).editor =
      e.holding (if Line.accepts c then text ++ [c] else text) := by
  have edited : (e.holding text).edit? .input (Line.insertChar? c) =
      (Line.insertChar? c ⟨text, text.length⟩).map ((e.holding text).withLine .input) := rfl
  by_cases accepts : Line.accepts c
  · rw [Editor.insertPlain, editSlot, edited, Line.insertChar_end accepts, if_pos accepts]
    exact (h.holding (text ++ [c])).afterInput
  · have refused : Line.insertChar? c ⟨text, text.length⟩ = none := if_neg accepts
    rw [Editor.insertPlain, editSlot, edited, refused, if_neg accepts]
    rfl

/-- A space commits nothing: there is no preview. -/
lemma Free.confirmPreview (h : e.Free) (text : Text) :
    ((e.holding text).confirmPreview .input).editor = e.holding (typedBehind text ' ') := by
  have space : Line.accepts ' ' := rfl
  unfold Editor.confirmPreview
  by_cases empty : text = []
  · subst empty
    have idle : (Slot.input.isInput && (e.holding []).input.isEmpty) = true := rfl
    have preview : (e.holding []).preview = none := h.preview
    rw [if_pos idle, preview]
    rfl
  · have pending : ¬ (Slot.input.isInput && (e.holding text).input.isEmpty) := by
      simp [Slot.isInput, Slot.index?, Editor.holding, Line.isEmpty, empty]
    rw [if_neg pending, h.insertPlain, typedBehind, if_pos space,
      if_pos ⟨space, fun blank => empty blank.2⟩]

/-- Every character is typed as it is, whatever token it may be elsewhere. -/
lemma Free.insertChar (h : e.Free) (text : Text) (c : Char) :
    ((e.holding text).insertChar .input c).editor = e.holding (typedBehind text c) := by
  have plain := (h.holding text).grammar
  by_cases space : c = ' '
  · rw [Editor.insertChar, if_pos space, h.confirmPreview, space]
  · rw [insertChar_plain space (by rw [plain]; rfl) (by rw [plain]; rfl), h.insertPlain, typedBehind]
    simp only [space, false_and, not_false_eq_true, and_true]

lemma Free.run_insertChars (h : e.Free) (s text : Text) :
    (e.holding text).run (s.map .insertChar) = e.holding (s.foldl typedBehind text) := by
  induction s generalizing text with
  | nil => rfl
  | cons c rest ih =>
    have first : ((e.holding text).respond (.insertChar c)).editor =
        e.holding (typedBehind text c) := by
      show ((e.holding text).insertChar (e.holding text).focus c).editor = _
      rw [(h.holding text).focus, h.insertChar]
    show ((e.holding text).respond (.insertChar c)).editor.run (rest.map .insertChar) = _
    rw [first, ih]
    rfl

/-! ## Committing -/

/-- A text that is not blank joins the terms as it is, and the input is empty. -/
lemma Free.exchange (h : e.Free) (nonblank : e.input.trimmed ≠ []) :
    e.exchange.editor.terms = e.terms.push (Term.plain e.input.trimmed) ∧
      e.exchange.editor.input = {} := by
  have read := reading_input h.carried nonblank
  have plain : e.grammar.prepare ⟨e.input.trimmed, e.input.trimmed, none, e.expected⟩ =
      Term.plain e.input.trimmed := by
    rw [h.grammar, h.expected]
    rfl
  rw [plain] at read
  rw [exchange_of_reading read]
  exact ⟨rfl, rfl⟩

/-- Whatever text is typed into an empty input of an editor for free text, nothing is committed and only
the input changes: it holds the text without line breaks and without spaces in front. Committing it then
appends one term, the text without line breaks and without white space at its ends, unless nothing is left
of it. -/
theorem free_text_verbatim (reachable : e.Reachable) (grammar : e.grammar = .plain)
    (focus : e.focus = .input) (empty : e.input.text = []) (selected : e.selected = [])
    (carried : e.carried = none) (s : Text) :
    let kept : Text := s.filter fun c => c ≠ '\r' ∧ c ≠ '\n'
    let shown : Text := kept.dropWhile (· = ' ')
    let committed := e.run [.insertText s, .exchange]
    e.run [.insertText s] = { e with input := ⟨shown, shown.length⟩ } ∧
      (Text.trim kept = [] → committed = e.run [.insertText s]) ∧
      (Text.trim kept ≠ [] →
        committed.terms.terms = e.terms.terms ++ [Term.plain (Text.trim kept)] ∧
          committed.input = {}) := by
  intro kept shown committed
  have he := reachable.wellFormed
  have expected := he.typed.untyped grammar
  have preview : e.preview = none := by
    rw [← Option.not_isSome_iff_eq_none, he.previewed.isSome_iff, expected]
    decide
  have free : e.Free := ⟨grammar, focus, selected, carried, expected, preview⟩
  have unbroken : s.filter Line.accepts = kept := by
    apply List.filter_congr
    intro c _
    rw [Bool.eq_iff_iff, Line.accepts_iff, decide_eq_true_eq]
    exact and_comm
  have typed : e.run [.insertText s] = e.holding shown := by
    have start : e = e.holding [] := by
      have line := he.lines.input.eq_empty empty
      show e = { e with input := {} }
      rw [← line]
    have strokes : e.run [.insertText s] = e.run (s.map .insertChar) := insertText_eq_run s e
    rw [strokes, start, free.run_insertChars, foldl_typedBehind, unbroken]
    rfl
  have committed_eq : committed = (e.holding shown).exchange.editor := by
    show (e.run [.insertText s]).exchange.editor = _
    rw [typed]
  have trimmed : (e.holding shown).input.trimmed = Text.trim kept := trim_dropWhile_space kept
  refine ⟨typed, fun blank => ?_, fun nonblank => ?_⟩
  · rw [committed_eq, typed]
    exact exchange_of_blank (trimmed.trans blank)
  · rw [← trimmed] at nonblank ⊢
    obtain ⟨terms, input⟩ := (free.holding shown).exchange nonblank
    rw [committed_eq, terms, input]
    exact ⟨rfl, rfl⟩

/-- A text with tokens, a line break and white space around it, behind a term that was committed before.
-/
theorem free_text_verbatim_tokens :
    let e := (new {} .plain).run [.insertText ['x'], .exchange]
    let s : Text := "  a = (b\r\n&) \t"
    e.Reachable ∧ e.grammar = .plain ∧ e.focus = .input ∧ e.input.text = [] ∧ e.selected = [] ∧
      e.carried = none ∧ (e.run [.insertText s]).terms = e.terms ∧
      (e.run [.insertText s, .exchange]).terms.terms =
        [Term.plain ['x'], Term.plain "a = (b&)".toList] := by
  intro e s
  have reachable : e.Reachable := ⟨_, _, .new {} .plain, rfl⟩
  obtain ⟨typed, _, committed⟩ := free_text_verbatim reachable rfl rfl rfl rfl rfl s
  refine ⟨reachable, rfl, rfl, rfl, rfl, rfl, ?_, (committed (by decide)).1⟩
  rw [typed]

end Editor
end FilterEditor
