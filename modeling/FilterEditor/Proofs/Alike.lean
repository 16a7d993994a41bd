import FilterEditor.Proofs.Delivery
import FilterEditor.Proofs.WellFormed

/-!
# Editors under different settings

Settings say how things are written and shown: the separator of the search string, the texts of
messages and of the placeholder, whether completers are asked and whether an input may be required.
They have no say in what is edited. Two editors that differ in nothing but their settings, and in
what is written by them, are `Alike`, and every message leaves them so; what they tell listeners is
the same but for requests to completers, and these are the same as well where both editors ask for
completions.

The proof goes handler by handler: what a handler decides, it decides by things on which editors
that are alike agree.
-/

namespace FilterEditor

/-- Whether an event asks a completer. -/
def Event.isRequest : Event → Bool
  | .complete _ => true
  | _ => false

/-- Effects that tell listeners the same: all but requests, and also these under a condition. -/
structure Tells (same : Prop) (effects effects' : List Effect) : Prop where
  announced : (notices effects).filter (!·.isRequest) = (notices effects').filter (!·.isRequest)
  requested : same → notices effects = notices effects'

namespace Tells

variable {same : Prop} {first first' rest rest' : List Effect}

lemma refl (effects : List Effect) : Tells same effects effects := ⟨rfl, fun _ => rfl⟩

/-- Effects that tell nothing. -/
lemma quiet (none : notices first = []) (none' : notices first' = []) :
    Tells same first first' where
  announced := by rw [none, none']
  requested := fun _ => by rw [none, none']

lemma append (h : Tells same first first') (h' : Tells same rest rest') :
    Tells same (first ++ rest) (first' ++ rest') where
  announced := by
    simp only [notices_append, List.filter_append, h.announced, h'.announced]
  requested := fun asks => by
    simp only [notices_append, h.requested asks, h'.requested asks]

end Tells

lemma notices_map {α : Type} {f : α → Effect} (quiet : ∀ x, (f x).event? = none)
    (xs : List α) : notices (xs.map f) = [] := by
  refine List.filterMap_eq_nil_iff.mpr fun effect mem => ?_
  obtain ⟨x, _, rfl⟩ := List.mem_map.mp mem
  exact quiet x

namespace Editor

variable {same : Prop} {e e' : Editor}

lemma notices_removal (e : Editor) : notices e.removalEffects = [] := notices_map (fun _ => rfl) _

lemma notices_render (e : Editor) : notices e.renderEffects = [] := by
  rw [renderEffects, List.mapIdx_eq_zipIdx_map]
  exact notices_map (fun _ => rfl) _

lemma notices_settled (e : Editor) : notices e.settledEffects = [] := rfl

/-- Editors that differ in their settings and in what is written by them. Under a condition they ask
completers alike. -/
structure Alike (same : Prop) (e e' : Editor) : Prop where
  completion : same → e'.settings.termCompletion = e.settings.termCompletion
  grammar : e'.grammar = e.grammar
  terms : e'.terms.terms = e.terms.terms
  expected : e'.expected = e.expected
  input : e'.input = e.input
  focus : e'.focus = e.focus
  draft : e'.draft = e.draft
  preview : e'.preview = e.preview
  carried : e'.carried = e.carried
  selected : e'.selected = e.selected
  validity : e'.validity.isSome = e.validity.isSome

/-- Changes to editors that are alike and that tell listeners the same. -/
structure Matches (same : Prop) (c c' : Change) : Prop where
  editor : Alike same c.editor c'.editor
  effects : Tells same c.effects c'.effects

namespace Matches

variable {c c' : Change}

lemma unchanged (h : Alike same e e') : Matches same e.unchanged e'.unchanged := ⟨h, .refl []⟩

lemma andThen {step step' : Editor → Change} (h : Matches same c c')
    (next : ∀ {e e'}, Alike same e e' → Matches same (step e) (step' e')) :
    Matches same (c.andThen step) (c'.andThen step') :=
  ⟨(next h.editor).editor, h.effects.append (next h.editor).effects⟩

lemma andShow {shown shown' : Editor → List Effect} (h : Matches same c c')
    (next : ∀ {e e'}, Alike same e e' → Tells same (shown e) (shown' e')) :
    Matches same (c.andShow shown) (c'.andShow shown') :=
  ⟨h.editor, h.effects.append (next h.editor)⟩

end Matches

namespace Alike

/-! ## What they agree on -/

lemma get? (h : Alike same e e') (index : Nat) : e'.terms.get? index = e.terms.get? index := by
  rw [Sequence.get?, Sequence.get?, h.terms]

lemma length (h : Alike same e e') : e'.terms.length = e.terms.length := by
  rw [Sequence.length, Sequence.length, h.terms]

lemma hasTerms (h : Alike same e e') : e'.hasTerms = e.hasTerms := by
  rw [Editor.hasTerms, Editor.hasTerms, Sequence.isEmpty, Sequence.isEmpty, h.terms]

lemma slotKind (h : Alike same e e') (slot : Slot) : e'.slotKind slot = e.slotKind slot := by
  cases slot with
  | input => exact h.expected
  | term index => rw [Editor.slotKind, Editor.slotKind, h.get?]

lemma slotContext (h : Alike same e e') (slot : Slot) :
    e'.slotContext slot = e.slotContext slot := by
  have preceding : e'.preceding slot = e.preceding slot := by
    cases slot with
    | input => rw [Editor.preceding, Editor.preceding, Sequence.last?, Sequence.last?, h.terms]
    | term index =>
      cases index with
      | zero => rfl
      | succ index => exact h.get? index
  rw [Editor.slotContext, Editor.slotContext, h.input, preceding]

lemma slotText (h : Alike same e e') (slot : Slot) : e'.slotText slot = e.slotText slot := by
  cases slot with
  | input => rw [Editor.slotText, Editor.slotText, h.input]
  | term index => simp only [Editor.slotText, h.get?, h.focus, h.draft]

lemma continuations (h : Alike same e e') (typed : Text) :
    e'.grammar.continuations typed e'.expected (e'.slotContext .input) =
      e.grammar.continuations typed e.expected (e.slotContext .input) := by
  rw [h.grammar, h.expected, h.slotContext]

lemma reading (h : Alike same e e') (slot : Slot) : e'.reading slot = e.reading slot := by
  have base : slot.index?.bind e'.terms.get? = slot.index?.bind e.terms.get? := by
    cases slot with
    | input => rfl
    | term index => exact h.get? index
  simp only [Editor.reading, h.slotText, base, h.carried, h.expected, h.grammar]

/-- The template of the messages has no say in what is valid. -/
lemma check (h : Alike same e e') (slot : Slot) (text : Text) :
    e.check slot text = .valid ∧ e'.check slot text = .valid ∨
      ∃ message message', e.check slot text = .invalid message ∧
        e'.check slot text = .invalid message' := by
  have template : ∀ (template template' : Text),
      e.grammar.check text (e.slotKind slot) (e.slotContext slot) template = .valid ∧
          e.grammar.check text (e.slotKind slot) (e.slotContext slot) template' = .valid ∨
        ∃ message message',
          e.grammar.check text (e.slotKind slot) (e.slotContext slot) template =
              .invalid message ∧
            e.grammar.check text (e.slotKind slot) (e.slotContext slot) template' =
              .invalid message' := by
    intro template template'
    unfold Grammar.check
    split
    · exact .inl ⟨rfl, rfl⟩
    · split
      any_goals exact .inl ⟨rfl, rfl⟩
      all_goals
        dsimp only
        split
        · exact .inl ⟨rfl, rfl⟩
        · exact .inr ⟨_, _, rfl, rfl⟩
  rw [Editor.check, Editor.check, h.grammar, h.slotKind, h.slotContext]
  exact template _ _

/-- Requests are told alike where both editors ask for completions, and not at all where one does
not. -/
lemma request (h : Alike same e e') (slot : Slot) (label : Text) :
    Tells same (e.requestEffects slot label) (e'.requestEffects slot label) := by
  have before : ∀ distance, e'.searchBefore slot distance = e.searchBefore slot distance := by
    intro distance
    simp only [searchBefore, h.length, h.get?]
  constructor
  · have requests : ∀ e : Editor,
        (notices (e.requestEffects slot label)).filter (!·.isRequest) = [] := by
      intro e
      unfold requestEffects
      split <;> rfl
    rw [requests, requests]
  · intro asks
    simp only [requestEffects, h.completion asks, h.focus, h.slotKind, before]

/-! ## Committing and saving -/

lemma reposition (h : Alike same e e') : Alike same e.reposition e'.reposition := by
  have expected : e'.expectedAfter e'.terms.last? = e.expectedAfter e.terms.last? := by
    simp only [expectedAfter, Sequence.last?, h.terms, h.grammar]
  have preview : e'.reposition.preview = e.reposition.preview := by
    simp only [Editor.reposition, expected, h.grammar]
  exact { h with expected, preview }

lemma add (h : Alike same e e') (t : Term) : Matches same (e.add t) (e'.add t) := by
  have pushed : Alike same { e with terms := e.terms.push t }
      { e' with terms := e'.terms.push t } :=
    { h with terms := congrArg (· ++ [t]) h.terms }
  exact ⟨pushed.reposition, .quiet rfl rfl⟩

lemma exchange (h : Alike same e e') : Matches same e.exchange e'.exchange := by
  simp only [Editor.exchange, read?, h.reading]
  cases e.reading .input with
  | none => exact .unchanged h
  | some t =>
    have forgotten : Alike same { e with carried := none } { e' with carried := none } :=
      { h with carried := rfl }
    have added := forgotten.add t
    have told := Tells.append (.refl [.notify .resetCompletion])
      (added.effects.append (.refl [.writeValue .input []]))
    exact ⟨{ added.editor with input := rfl }, told⟩

/-- A save is refused for both or accepted for both. -/
lemma save (h : Alike same e e') (index : Nat) :
    (e'.save index).1 = (e.save index).1 ∧ Matches same (e.save index).2 (e'.save index).2 := by
  by_cases focus : e.focus = .term index
  case neg =>
    rw [save_elsewhere focus, save_elsewhere (h.focus ▸ focus)]
    exact ⟨rfl, .unchanged h⟩
  cases held : e.terms.get? index with
  | none =>
    have held' := (h.get? index).trans held
    simp only [Editor.save, held, held']
    exact ⟨trivial, .unchanged h⟩
  | some current =>
    have held' := (h.get? index).trans held
    cases edited : e.draft with
    | none =>
      have edited' := h.draft.trans edited
      simp only [Editor.save, held, held', edited, edited']
      exact ⟨trivial, .unchanged h⟩
    | some draft =>
      rw [save_eq held edited focus, save_eq held' (h.draft.trans edited) (h.focus.trans focus),
        h.reading]
      rcases h.check (.term index) draft.text with ⟨valid, valid'⟩ | ⟨_, _, invalid, invalid'⟩
      · rw [valid, valid']
        cases e.reading (.term index) with
        | none => exact ⟨rfl, { h with validity := rfl, draft := rfl }, .quiet rfl rfl⟩
        | some t =>
          by_cases label : current.label = t.label
          · simp only [label, if_true]
            exact ⟨trivial, { h with validity := rfl, carried := rfl }, .quiet rfl rfl⟩
          · simp only [label, if_false]
            have terms := congrArg (List.set · index t) h.terms
            exact ⟨trivial, { h with validity := rfl, carried := rfl, terms }, .quiet rfl rfl⟩
      · rw [invalid, invalid']
        exact ⟨rfl, { h with validity := rfl }, .quiet rfl rfl⟩

/-! ## Moving the focus -/

lemma enter (h : Alike same e e') (slot : Slot) : Matches same (e.enter slot) (e'.enter slot) := by
  cases slot with
  | input =>
    have preview : e'.grammar.previewFor e'.expected = e.grammar.previewFor e.expected := by
      rw [h.grammar, h.expected]
    exact ⟨{ h with focus := rfl, validity := rfl, draft := rfl, preview }, .quiet rfl rfl⟩
  | term index =>
    have draft := congrArg (Option.map fun t : Term => Line.ofText t.label) (h.get? index)
    exact ⟨{ h with focus := rfl, validity := rfl, draft }, .refl []⟩

lemma focused (h : Alike same e e') (slot : Slot) :
    Matches same (e.focused slot) (e'.focused slot) := by
  simp only [Editor.focused, h.focus, h.length]
  split
  · exact .unchanged h
  · cases focus : e.focus with
    | input => exact h.enter slot
    | term left =>
      obtain ⟨same, saved⟩ := h.save left
      dsimp only
      generalize e.save left = result at same saved
      generalize e'.save left = result' at same saved
      obtain ⟨accepted, c⟩ := result
      obtain ⟨_, c'⟩ := result'
      cases same
      cases accepted with
      | true => exact saved.andThen fun h => h.enter slot
      | false =>
        refine saved.andShow fun h => ?_
        rw [h.focus]
        exact .refl _

lemma nextSlot? (h : Alike same e e') : e'.nextSlot? = e.nextSlot? := by
  simp only [Editor.nextSlot?, h.focus, h.length, h.hasTerms]

lemma previousSlot? (h : Alike same e e') : e'.previousSlot? = e.previousSlot? := by
  unfold Editor.previousSlot?
  rw [h.focus, h.length, h.hasTerms]

/-! ## Selecting and removing -/

lemma refocus (h : Alike same e e') (removed : Nat) :
    Alike same (e.refocus removed) (e'.refocus removed) := by
  unfold Editor.refocus
  rw [h.focus]
  split
  · exact h
  · split
    · exact { h with focus := rfl, draft := rfl, validity := rfl }
    · exact { h with focus := rfl }

lemma remove (h : Alike same e e') (index : Nat) :
    Matches same (e.remove index) (e'.remove index) := by
  cases held : e.terms.get? index with
  | none =>
    rw [remove_absent held, remove_absent ((h.get? index).trans held)]
    exact .unchanged h
  | some t =>
    have without : Alike same (e.without index) (e'.without index) :=
      { h with
        terms := congrArg (·.eraseIdx index) h.terms
        selected := congrArg (fun s => (s.filter (· ≠ index)).map (shiftIndex index)) h.selected }
    rw [remove_eq held, remove_eq ((h.get? index).trans held)]
    exact ⟨(without.refocus index).reposition, .quiet rfl rfl⟩

lemma pop (h : Alike same e e') : Matches same e.pop e'.pop := by
  unfold Editor.pop
  rw [h.hasTerms, h.length]
  split
  · exact (h.remove _).andShow fun _ => .refl _
  · exact .unchanged h

lemma clearSelected (h : Alike same e e') : Matches same e.clearSelected e'.clearSelected := by
  have removals : ∀ (indices : List Nat) (c c' : Change), Matches same c c' →
      Matches same (indices.foldl (fun c index => c.andThen (Editor.remove index)) c)
        (indices.foldl (fun c index => c.andThen (Editor.remove index)) c') := by
    intro indices
    induction indices with
    | nil => exact fun _ _ h => h
    | cons index rest ih => exact fun c c' h => ih _ _ (h.andThen fun h => h.remove index)
  unfold Editor.clearSelected
  rw [h.hasTerms, h.selected]
  split
  · exact removals _ _ _ (.unchanged h)
  · exact .unchanged h

lemma selectAll (h : Alike same e e') : Matches same e.selectAll e'.selectAll := by
  have quiet : ∀ e : Editor, notices e.selectAll.effects = [] := fun e =>
    notices_map (fun _ => rfl) _
  exact ⟨{ h with selected := congrArg List.range h.length }, .quiet (quiet e) (quiet e')⟩

lemma deselect (h : Alike same e e') : Matches same e.deselect e'.deselect := by
  have quiet : ∀ e : Editor, notices e.deselect.effects = [] := fun e =>
    notices_map (fun _ => rfl) _
  exact ⟨{ h with selected := rfl }, .quiet (quiet e) (quiet e')⟩

lemma toggle (h : Alike same e e') (index : Nat) :
    Matches same (e.toggle index) (e'.toggle index) := by
  unfold Editor.toggle
  rw [h.length, h.selected]
  split
  · exact .unchanged h
  · split <;> exact ⟨{ h with selected := rfl }, .quiet rfl rfl⟩

/-! ## Suggestions -/

lemma placeholder (e e' : Editor) : Tells same e.placeholderEffects e'.placeholderEffects :=
  .quiet rfl rfl

/-- A suggestion is refused by both or written by both. -/
lemma writeSuggestion (h : Alike same e e') (slot : Slot) (data : Suggestion) :
    e.writeSuggestion? slot data = none ∧ e'.writeSuggestion? slot data = none ∨
      ∃ c c', e.writeSuggestion? slot data = some c ∧ e'.writeSuggestion? slot data = some c' ∧
        Matches same c c' := by
  cases slot with
  | input =>
    refine .inr ⟨_, _, rfl, rfl, ?_⟩
    exact ⟨{ h with input := rfl, carried := rfl }, .quiet rfl rfl⟩
  | term index =>
    have same : (e'.focus = .term index ∧ e'.draft.isSome) ↔
        (e.focus = .term index ∧ e.draft.isSome) := by
      rw [h.focus, h.draft]
    by_cases ready : e.focus = .term index ∧ e.draft.isSome
    · simp only [writeSuggestion?, if_pos ready, if_pos (same.mpr ready)]
      exact .inr ⟨_, _, rfl, rfl, { h with draft := rfl, carried := rfl }, .quiet rfl rfl⟩
    · simp only [writeSuggestion?, if_neg ready, if_neg fun h => ready (same.mp h)]
      exact .inl ⟨rfl, rfl⟩

lemma suggest (h : Alike same e e') (slot : Slot) (data : Suggestion) :
    Matches same (e.suggest slot data) (e'.suggest slot data) := by
  unfold Editor.suggest
  rcases h.writeSuggestion slot data with ⟨refused, refused'⟩ | ⟨c, c', written, written', both⟩
  · rw [refused, refused']
    exact .unchanged h
  · rw [written, written']
    refine both.andShow fun h => ?_
    rw [h.slotText]
    exact h.request slot _

lemma complete (h : Alike same e e') (slot : Slot) (data : Suggestion) :
    Matches same (e.complete slot data) (e'.complete slot data) := by
  unfold Editor.complete
  rcases h.writeSuggestion slot data with ⟨refused, refused'⟩ | ⟨c, c', written, written', both⟩
  · rw [refused, refused']
    exact .unchanged h
  · rw [written, written']
    dsimp only
    split
    · exact (both.andThen fun h => h.exchange).andShow fun _ => placeholder _ _
    · exact both

/-! ## Typing -/

/-- An edit that both make or that neither makes. -/
lemma edit (h : Alike same e e') (slot : Slot) (change : Line → Option Line) :
    e.edit? slot change = none ∧ e'.edit? slot change = none ∨
      ∃ next next', e.edit? slot change = some next ∧ e'.edit? slot change = some next' ∧
        Alike same next next' := by
  have line : e'.line? slot = e.line? slot := by
    cases slot with
    | input => exact congrArg some h.input
    | term index => exact h.draft
  unfold edit?
  rw [line]
  cases (e.line? slot).bind change with
  | none => exact .inl ⟨rfl, rfl⟩
  | some l =>
    refine .inr ⟨_, _, rfl, rfl, ?_⟩
    cases slot with
    | input => exact { h with input := rfl }
    | term index => exact { h with draft := rfl }

lemma afterInput (h : Alike same e e') : Matches same e.afterInput e'.afterInput := by
  have finish : ∀ {c c' : Change}, Matches same c c' →
      Matches same
        (((c.andShow fun e => e.requestEffects .input e.input.text).andThen
          Editor.clearSelected).andShow placeholderEffects)
        (((c'.andShow fun e => e.requestEffects .input e.input.text).andThen
          Editor.clearSelected).andShow placeholderEffects) := by
    intro c c' both
    have asked : ∀ {e e' : Editor}, Alike same e e' → Tells same
        (e.requestEffects .input e.input.text) (e'.requestEffects .input e'.input.text) := by
      intro e e' h
      rw [h.input]
      exact h.request .input _
    exact ((both.andShow asked).andThen fun h => h.clearSelected).andShow fun _ => placeholder _ _
  unfold Editor.afterInput
  simp only [h.preview, h.input, h.hasTerms, h.continuations]
  cases e.preview with
  | none => exact finish (.unchanged h)
  | some preview =>
    dsimp only
    split
    · exact finish (.unchanged h)
    · split
      · exact .unchanged h
      · refine finish (Matches.andShow ?_ fun _ => placeholder _ _)
        split
        · exact h.add preview
        · exact h.exchange

lemma afterTermEdit (h : Alike same e e') (slot : Slot) :
    Matches same (e.afterTermEdit slot) (e'.afterTermEdit slot) := by
  unfold Editor.afterTermEdit
  rw [h.slotText]
  dsimp only
  rcases h.check slot (e.slotText slot) with ⟨valid, valid'⟩ | ⟨_, _, invalid, invalid'⟩
  · rw [valid, valid']
    have accepted : Alike same { e with validity := none } { e' with validity := none } :=
      { h with validity := rfl }
    exact ⟨accepted, Tells.append (.refl [.setValidity slot none]) (accepted.request slot _)⟩
  · rw [invalid, invalid']
    exact ⟨{ h with validity := rfl }, .quiet rfl rfl⟩

lemma editSlot (h : Alike same e e') (slot : Slot) (change : Line → Option Line) :
    Matches same (e.editSlot slot change) (e'.editSlot slot change) := by
  unfold Editor.editSlot
  rcases h.edit slot change with ⟨still, still'⟩ | ⟨next, next', edited, edited', h⟩
  · rw [still, still']
    exact .unchanged h
  · rw [edited, edited']
    refine Matches.andThen ⟨h, .quiet rfl rfl⟩ fun h => ?_
    cases slot with
    | input => exact h.afterInput
    | term index => exact h.afterTermEdit _

lemma confirmPreview (h : Alike same e e') (slot : Slot) :
    Matches same (e.confirmPreview slot) (e'.confirmPreview slot) := by
  unfold Editor.confirmPreview
  rw [h.input, h.preview]
  split
  · refine Matches.andShow ?_ fun h => h.request .input []
    cases e.preview with
    | none => exact .unchanged h
    | some preview => exact h.add preview
  · exact h.editSlot slot _

lemma insertChar (h : Alike same e e') (slot : Slot) (c : Char) :
    Matches same (e.insertChar slot c) (e'.insertChar slot c) := by
  have typed : e'.typedText c = e.typedText c := by
    rw [typedText, typedText, h.expected, h.input]
  unfold Editor.insertChar
  split
  · exact h.confirmPreview slot
  · split
    · exact h.editSlot slot _
    · simp only [typed, h.continuations]
      split
      · exact (h.exchange.andShow fun _ => placeholder _ _).andThen fun h => h.editSlot slot _
      · split
        · exact h.editSlot slot _
        · rename_i token _
          refine Matches.andShow (Matches.andThen ?_ fun h => h.add token) fun _ => placeholder _ _
          rw [h.expected]
          split
          · exact h.exchange
          · exact ⟨{ h with expected := rfl, input := rfl }, .quiet rfl rfl⟩

lemma insertText (h : Alike same e e') (text : Text) :
    Matches same (e.insertText text) (e'.insertText text) := by
  have typed : ∀ c c' : Change, Matches same c c' →
      Matches same
        (text.foldl (fun change c => change.andThen fun e => e.insertChar e.focus c) c)
        (text.foldl (fun change c => change.andThen fun e => e.insertChar e.focus c) c') := by
    induction text with
    | nil => exact fun _ _ h => h
    | cons first rest ih =>
      refine fun c c' both => ih _ _ (both.andThen fun h => ?_)
      rw [h.focus]
      exact h.insertChar _ first
  exact typed _ _ (.unchanged h)

lemma deleteBackward (h : Alike same e e') (slot : Slot) :
    Matches same (e.deleteBackward slot) (e'.deleteBackward slot) := by
  unfold Editor.deleteBackward
  split
  · refine (h.clearSelected.andThen fun h => ?_).andShow fun _ => placeholder _ _
    rw [h.input]
    split
    · exact h.pop
    · exact h.editSlot slot _
  · exact h.editSlot slot _

lemma deleteForward (h : Alike same e e') (slot : Slot) :
    Matches same (e.deleteForward slot) (e'.deleteForward slot) := by
  unfold Editor.deleteForward
  dsimp only
  split
  · exact ((h.editSlot slot _).andThen fun h => h.clearSelected).andShow fun _ => placeholder _ _
  · exact h.editSlot slot _

lemma cyclePreview (h : Alike same e e') (direction : Direction) :
    Matches same (e.cyclePreview direction) (e'.cyclePreview direction) := by
  unfold Editor.cyclePreview
  rw [h.preview, h.grammar]
  dsimp only
  split
  · exact .unchanged h
  · exact ⟨{ h with grammar := rfl, preview := rfl }, .quiet rfl rfl⟩

lemma moveInSlot (h : Alike same e e') (slot : Slot) (change : Line → Option Line) :
    Alike same (e.moveInSlot slot change) (e'.moveInSlot slot change) := by
  unfold Editor.moveInSlot
  rcases h.edit slot change with ⟨still, still'⟩ | ⟨next, next', edited, edited', moved⟩
  · rw [still, still']
    exact h
  · rw [edited, edited']
    exact moved

lemma moveSideways (h : Alike same e e') (slot : Slot) (atEdge : Line → Bool)
    (move : Line → Option Line) {target : Editor → Option Slot} (aimed : target e' = target e) :
    Matches same (e.moveSideways slot atEdge move target)
      (e'.moveSideways slot atEdge move target) := by
  have line : e'.line? slot = e.line? slot := by
    cases slot with
    | input => exact congrArg some h.input
    | term index => exact h.draft
  have moved : Matches same
      (if (e.line? slot).any atEdge && e.hasTerms then ⟨e, focusEffects (target e)⟩
        else (e.moveInSlot slot move).unchanged)
      (if (e'.line? slot).any atEdge && e'.hasTerms then ⟨e', focusEffects (target e')⟩
        else (e'.moveInSlot slot move).unchanged) := by
    rw [line, h.hasTerms, aimed]
    split
    · exact ⟨h, .refl _⟩
    · exact .unchanged (h.moveInSlot slot move)
  unfold Editor.moveSideways
  dsimp only
  split
  · exact moved.andThen fun h => h.deselect
  · exact moved

lemma moveCursor (h : Alike same e e') (slot : Slot) (direction : Direction) :
    Matches same (e.moveCursor slot direction) (e'.moveCursor slot direction) := by
  cases direction with
  | up => exact h.cyclePreview .up
  | down => exact h.cyclePreview .down
  | left => exact h.moveSideways slot _ _ h.previousSlot?
  | right => exact h.moveSideways slot _ _ h.nextSlot?

lemma moveEnd (h : Alike same e e') (slot : Slot) :
    Matches same (e.moveEnd slot) (e'.moveEnd slot) := by
  have moved := h.moveInSlot slot fun line => some line.moveEnd
  unfold Editor.moveEnd
  dsimp only
  split
  · exact moved.deselect
  · exact .unchanged moved

lemma commitPreview (h : Alike same e e') (slot : Slot) :
    Matches same (e.commitPreview slot) (e'.commitPreview slot) := by
  unfold Editor.commitPreview
  rw [h.preview]
  split
  · rename_i preview _
    exact (h.add preview).andShow fun _ => placeholder _ _
  · exact .unchanged h

/-! ## Restoring and submitting -/

lemma restore (h : Alike same e e') (terms : List Term) :
    Alike same (e.restore terms) (e'.restore terms) := by
  have emptied : Alike same
      { e with
        terms := Sequence.ofTerms e.settings.separator terms, input := {}, focus := .input,
        draft := none, carried := none, selected := [], validity := none }
      { e' with
        terms := Sequence.ofTerms e'.settings.separator terms, input := {}, focus := .input,
        draft := none, carried := none, selected := [], validity := none } :=
    ⟨h.completion, h.grammar, rfl, h.expected, rfl, rfl, rfl, h.preview, rfl, rfl, rfl⟩
  exact emptied.reposition

/-- A payload is refused by both or loaded by both. -/
lemma loadOrIgnore (h : Alike same e e') (payload : Payload) :
    Matches same (e.loadOrIgnore payload) (e'.loadOrIgnore payload) := by
  have quiet : ∀ e e' : Editor, notices
      (if isRendered payload then e'.settledEffects
        else e.removalEffects ++ e'.renderEffects ++ e'.settledEffects) = [] := by
    intro e e'
    split
    · exact notices_settled e'
    · rw [notices_append, notices_append, notices_removal, notices_render, notices_settled]
      rfl
  simp only [Editor.loadOrIgnore, load, h.grammar]
  cases payloadTerms payload with
  | error => exact .unchanged h
  | ok terms =>
    simp only [bind, Except.bind]
    cases checkTerms e.grammar terms with
    | error => exact .unchanged h
    | ok => exact ⟨h.restore terms, .quiet (quiet _ _) (quiet _ _)⟩

lemma refresh (h : Alike same e e') : Matches same e.refresh e'.refresh := by
  have quiet : ∀ e : Editor, notices (e.renderEffects ++ e.settledEffects) = [] := by
    intro e
    rw [notices_append, notices_render, notices_settled]
    rfl
  unfold Editor.refresh
  rw [h.terms]
  exact ⟨h.restore _, .quiet (quiet _) (quiet _)⟩

lemma reset (h : Alike same e e') : Matches same e.reset e'.reset := by
  have quiet : ∀ e e' : Editor, notices (e.removalEffects ++ e'.settledEffects) = [] := by
    intro e e'
    rw [notices_append, notices_removal, notices_settled]
    rfl
  exact ⟨h.restore [], .quiet (quiet _ _) (quiet _ _)⟩

/-- Whether the input is required does not matter. -/
lemma markRequired (h : Alike same e e') : Matches same e.markRequired e'.markRequired := by
  have silent : ∀ {effects : List Effect} {required},
      (∀ effect ∈ effects, effect = .setRequired required) → notices effects = [] := by
    intro effects required marks
    apply List.filterMap_eq_nil_iff.mpr
    intro effect mem
    rw [marks effect mem]
    rfl
  obtain ⟨_, eq, marks⟩ := markRequired_eq e
  obtain ⟨_, eq', marks'⟩ := markRequired_eq e'
  refine ⟨?_, .quiet (silent marks) (silent marks')⟩
  rw [eq, eq']
  exact { h with completion := h.completion }

lemma submit (h : Alike same e e') : Matches same e.submit e'.submit :=
  (((h.exchange.andShow fun _ => placeholder _ _).andThen fun h => h.markRequired).andShow
    fun _ => .quiet rfl rfl)

/-! ## Messages -/

/-- Every message leaves editors alike and has them tell listeners the same. -/
lemma respond (h : Alike same e e') (message : Message) :
    Matches same (e.respond message) (e'.respond message) := by
  cases message with
  | insertChar c =>
    rw [Editor.respond, Editor.respond, h.focus]
    exact h.insertChar _ c
  | insertText text => exact h.insertText text
  | deleteBackward =>
    rw [Editor.respond, Editor.respond, h.focus]
    exact h.deleteBackward _
  | deleteForward =>
    rw [Editor.respond, Editor.respond, h.focus]
    exact h.deleteForward _
  | moveCursor direction =>
    rw [Editor.respond, Editor.respond, h.focus]
    exact h.moveCursor _ direction
  | moveStart =>
    rw [Editor.respond, Editor.respond, h.focus]
    exact .unchanged (h.moveInSlot _ _)
  | moveEnd =>
    rw [Editor.respond, Editor.respond, h.focus]
    exact h.moveEnd _
  | confirmPreview =>
    rw [Editor.respond, Editor.respond, h.focus]
    exact h.confirmPreview _
  | commitPreview =>
    rw [Editor.respond, Editor.respond, h.focus]
    exact h.commitPreview _
  | cyclePreview direction => exact h.cyclePreview direction
  | exchange => exact h.exchange.andShow fun _ => placeholder _ _
  | removeLast => exact h.pop.andShow fun _ => placeholder _ _
  | remove index => exact (h.remove index).andShow fun _ => placeholder _ _
  | clearSelected => exact h.clearSelected.andShow fun _ => placeholder _ _
  | save index => exact (h.save index).2
  | selectAll => exact h.selectAll
  | deselect => exact h.deselect
  | toggle index => exact h.toggle index
  | forward =>
    rw [Editor.respond, Editor.respond, h.nextSlot?]
    exact ⟨h, .refl _⟩
  | backward =>
    rw [Editor.respond, Editor.respond, h.previousSlot?]
    exact ⟨h, .refl _⟩
  | focused slot => exact h.focused slot
  | suggestion slot data => exact h.suggest slot data
  | completion slot data => exact h.complete slot data
  | load payload => exact h.loadOrIgnore payload
  | refresh => exact h.refresh
  | reset => exact h.reset
  | submit => exact h.submit

lemma run (h : Alike same e e') (messages : List Message) :
    Alike same (e.run messages) (e'.run messages) := by
  induction messages generalizing e e' with
  | nil => exact h
  | cons message rest ih => exact ih (h.respond message).editor

lemma new {s s' : Settings} (asks : same → s'.termCompletion = s.termCompletion)
    (grammar : Grammar) : Alike same (.new s grammar) (.new s' grammar) := by
  have empty : Alike same { Editor.new s grammar with expected := none, preview := none }
      { Editor.new s' grammar with expected := none, preview := none } :=
    ⟨asks, rfl, rfl, rfl, rfl, rfl, rfl, rfl, rfl, rfl, rfl⟩
  exact empty.reposition

end Alike

/-- Settings have no say in what is edited: after the same messages, editors that started empty with
the same grammar differ in nothing but what is written by their settings. The next message has them
tell listeners the same but for requests, and the same requests if both settings ask for completions
or neither does. -/
theorem alike_whatever_the_settings (s s' : Settings) (grammar : Grammar) (messages : List Message)
    (message : Message) :
    let e := (new s grammar).run messages
    let e' := (new s' grammar).run messages
    let same := s'.termCompletion = s.termCompletion
    Alike same e e' ∧
      Tells same (e.update message).2.effects (e'.update message).2.effects := by
  intro e e' same
  have alike : Alike same e e' := (Alike.new id grammar).run messages
  refine ⟨alike, ?_⟩
  simp only [update, Command.effects_ofEffects]
  exact (alike.respond message).effects

end Editor
end FilterEditor
