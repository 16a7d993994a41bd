import FilterEditor.Proofs.Clearing
import FilterEditor.Proofs.Keying
import FilterEditor.Proofs.Word

/-!
# Typing over a selection

Whatever is selected goes once something is typed, but not at once: if the character cannot belong to
the previewed operator, the preview is committed first, behind the selection. So a character that is
typed over all terms takes their place just if nothing is previewed; otherwise the preview stays.
-/

namespace FilterEditor.Editor

variable {e : Editor} {c : Char}

/-- The first character of an empty input. -/
lemma insertPlain_empty (accepts : Line.accepts c) (empty : e.input = {}) :
    (e.insertPlain .input c).editor =
      ({ e with input := ⟨[c], 1⟩ } : Editor).afterInput.editor := by
  have edited : e.edit? .input (Line.insertChar? c) = some { e with input := ⟨[c], 1⟩ } := by
    simp [edit?, line?, empty, Line.insertChar?, accepts, withLine]
  rw [insertPlain, editSlot, edited]
  rfl

/-- A character that starts no token is typed as it is into an empty input. -/
lemma insertChar_inert (nonblank : Text.isBlank c = false) (inert : Inert c)
    (grammar : e.grammar = .filter) (ungrouped : e.expected ≠ some .groupingOperator)
    (empty : e.input = {}) :
    (e.insertChar .input c).editor =
      ({ e with input := ⟨[c], 1⟩ } : Editor).afterInput.editor := by
  have typed : e.typedText c = [c] := by
    rw [typedText, empty]
    split <;> rfl
  obtain ⟨whole, plain⟩ := Grammar.continuations_of_inert inert ungrouped (e.slotContext .input)
  rw [← grammar, ← typed] at whole plain
  rw [insertChar_plain (ne_space_of_nonblank nonblank) whole plain,
    insertPlain_empty (accepts_of_nonblank nonblank) empty]

/-- A character that starts no token commits the preview, if there is one; then the selection goes. -/
lemma afterInput_inert (tokens : ∀ t, e.preview = some t → t ∈ Term.tokens)
    (nonblank : Text.isBlank c = false) (inert : Inert c) (grammar : e.grammar = .filter)
    (ungrouped : e.expected ≠ some .groupingOperator)
    (terms : e.terms.terms ≠ []) (input : e.input = ⟨[c], 1⟩) :
    e.afterInput.editor =
      ((e.preview.map fun p => (e.add p).editor).getD e).clearSelected.editor := by
  cases previewed : e.preview with
  | none => exact afterInput_of_none previewed
  | some preview =>
    have text : e.input.trimmed = [c] := by
      rw [input]
      apply trim_eq_self
      simpa using nonblank
    have hasTerms : e.hasTerms := by simpa [hasTerms, Sequence.isEmpty] using terms
    have whole := (Grammar.continuations_of_inert inert ungrouped (e.slotContext .input)).1
    rw [← grammar, ← text] at whole
    have other : e.input.trimmed ≠ preview.label := by
      rw [text]
      exact (inert preview (tokens preview previewed) []).symm
    exact afterInput_of_other previewed (by rw [text]; rfl) hasTerms whole other

/-- Once all terms are selected, only what joins them afterwards is left. -/
lemma cleared_behind (ascending : e.selected.Pairwise (· < ·))
    (all : ∀ i, i ∈ e.selected ↔ i < e.terms.length) (joined : Option Term) :
    let e' := ((joined.map fun t => (e.add t).editor).getD e).clearSelected.editor
    e'.terms.terms = joined.toList ∧ e'.input = e.input := by
  have gone : remaining e.selected e.terms.terms = [] := remaining_all fun i => (all i).mpr
  cases joined with
  | none =>
    obtain ⟨cleared, _⟩ := cleared_clearSelected ascending fun i => (all i).mp
    exact ⟨cleared.terms.trans gone, cleared.input⟩
  | some t =>
    have within : ∀ i ∈ e.selected, i < (e.add t).editor.terms.length := by
      intro i mem
      have lt : i < e.terms.length := (all i).mp mem
      have length : (e.add t).editor.terms.length = e.terms.length + 1 := List.length_append
      omega
    obtain ⟨cleared, _⟩ := cleared_clearSelected (e := (e.add t).editor) ascending within
    refine ⟨cleared.terms.trans ?_, cleared.input⟩
    have stays : e.terms.terms.length ∉ e.selected := fun mem =>
      Nat.lt_irrefl e.terms.length ((all _).mp mem)
    show remaining e.selected (e.terms.terms ++ [t]) = [t]
    rw [remaining_concat, gone, if_neg stays]
    rfl

/-- A character that is typed over all terms of a filter is all that is left of it, unless an operator
is expected or a logical one: then the preview is left as well. -/
theorem typing_over_selection_iff (reachable : e.Reachable) (grammar : e.grammar = .filter)
    (terms : e.terms.terms ≠ []) (focus : e.focus = .input) (empty : e.input.text = [])
    (selected : ∀ i < e.terms.length, i ∈ e.selected) (nonblank : Text.isBlank c = false)
    (inert : c ∉ ['=', '!', '<', '>', '&', '|', '(', ')']) :
    let e' := (e.update (.insertChar c)).1
    e'.terms.terms = e.preview.toList ∧ e'.input = ⟨[c], 1⟩ ∧
      (e'.terms.terms = [] ∧ e'.input.text = [c] ↔
        ¬ (e.expected = some .operator ∨ e.expected = some .logicalOperator)) := by
  intro e'
  have he := reachable.wellFormed
  have inert := inert_of_not_mem inert
  have ungrouped : e.expected ≠ some .groupingOperator := by
    rcases he.typed.expected grammar with eq | eq | eq | eq <;> rw [eq] <;> decide
  let edited : Editor := { e with input := ⟨[c], 1⟩ }
  have struck : e' = edited.afterInput.editor := by
    show (e.insertChar e.focus c).editor = edited.afterInput.editor
    rw [focus]
    exact insertChar_inert nonblank inert grammar ungrouped
      (he.lines.input.eq_empty empty)
  have followed := afterInput_inert (e := edited) (fun _ => he.previewed.token) nonblank inert grammar
    ungrouped terms rfl
  obtain ⟨left, input⟩ := cleared_behind (e := edited) reachable.ascending
    (fun i => ⟨he.selected i, selected i⟩) e.preview
  rw [← followed, ← struck] at left input
  refine ⟨left, input, ?_⟩
  rw [left, input, ← he.previewed.isSome_iff]
  cases e.preview with
  | none => exact iff_of_true ⟨rfl, rfl⟩ nofun
  | some t => exact iff_of_false (fun ⟨empty, _⟩ => nomatch empty) (not_not.mpr rfl)

/-- All terms of a condition with an operator behind it. -/
theorem typing_over_selection_replaced :
    let e := (ofTree {} (.condition ⟨['a'], ['='], .text ['v'], none⟩)).run
      [.insertChar '&', .selectAll]
    let e' := (e.update (.insertChar 'x')).1
    e.Reachable ∧ e.grammar = .filter ∧ e.focus = .input ∧ e.input.text = [] ∧
      e.terms.length = 4 ∧ e.selected = [0, 1, 2, 3] ∧
        e'.terms.terms = [] ∧ e'.input.text = ['x'] := by
  intro e
  have reachable : e.Reachable := ⟨_, _, .ofTree {} _, rfl⟩
  have grammar : e.grammar = .filter := by decide
  have focus : e.focus = .input := by decide
  have empty : e.input.text = [] := by decide
  obtain ⟨_, _, replaced⟩ := typing_over_selection_iff (c := 'x') reachable grammar (by decide) focus
    empty (by decide) (by decide) (by decide)
  exact ⟨reachable, grammar, focus, empty, by decide, by decide, replaced.mpr (by decide)⟩

/-- All terms of a condition alone: what is typed over them is joined to nothing. -/
theorem typing_over_selection_joined :
    let e := (ofTree {} (.condition ⟨['a'], ['='], .text ['v'], none⟩)).run [.selectAll]
    let e' := (e.update (.insertChar 'x')).1
    e.Reachable ∧ e.grammar = .filter ∧ e.focus = .input ∧ e.input.text = [] ∧
      e.terms.length = 3 ∧ e.selected = [0, 1, 2] ∧
        e'.terms.terms = [Term.logical ['&']] ∧ e'.input.text = ['x'] := by
  intro e e'
  exact ⟨⟨_, _, .ofTree {} _, rfl⟩, by decide⟩

end FilterEditor.Editor
