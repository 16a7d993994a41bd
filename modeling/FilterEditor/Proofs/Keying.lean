import FilterEditor.Proofs.WellFormed
import Mathlib.Logic.Relation

/-!
# Keystrokes

Keys that go to the trailing input while nothing is selected and no suggestion is carried. `Keyed`
lists what a key can do then, in small steps: the input is committed or edited, a preview or a token
joins the terms, the last term goes. Every message that types comes down to such steps
(`keys_respond`), so what they keep holds of everything that can be typed.
-/

namespace FilterEditor

/-- Whether a message types into the slot in focus, moves in it, or commits or previews from it. -/
def Message.isTyping : Message → Bool
  | .insertChar _ | .insertText _ | .deleteBackward | .deleteForward => true
  | .moveCursor _ | .moveStart | .moveEnd => true
  | .confirmPreview | .commitPreview | .cyclePreview _ => true
  | .exchange | .submit => true
  | _ => false

/-- A message as single strokes: a text is typed character by character. -/
def Message.strokes : Message → List Message
  | .insertText text => text.map .insertChar
  | message => [message]

namespace Editor

variable {e e' e'' : Editor} {c : Char} {t : Term}

/-! ## Following an edit -/

lemma clearSelected_of_empty (h : e.selected = []) : e.clearSelected = e.unchanged := by
  unfold clearSelected
  rw [h]
  split <;> rfl

/-- Where nothing is previewed, only the selection goes. -/
lemma afterInput_of_none (preview : e.preview = none) :
    e.afterInput.editor = e.clearSelected.editor := by
  simp only [afterInput, preview, Change.andShow, Change.andThen, unchanged]

/-- A text that is no operator commits the preview, and then the selection goes. -/
lemma afterInput_of_other {preview : Term} (previewed : e.preview = some preview)
    (nonempty : e.input.trimmed.isEmpty = false) (terms : e.hasTerms)
    (whole : (e.grammar.continuations e.input.trimmed e.expected
      (e.slotContext .input)).isPartial = false) (other : e.input.trimmed ≠ preview.label) :
    e.afterInput.editor = (e.add preview).editor.clearSelected.editor := by
  simp only [afterInput, previewed, nonempty, terms, whole, Bool.not_true, Bool.or_self,
    Bool.false_eq_true, if_false, ne_eq, other, not_false_eq_true, if_true, Change.andShow,
    Change.andThen]

/-- A text that begins a longer operator stays. -/
lemma afterInput_of_partial {preview : Term} (previewed : e.preview = some preview)
    (nonempty : e.input.trimmed.isEmpty = false) (terms : e.hasTerms)
    (begins : (e.grammar.continuations e.input.trimmed e.expected
      (e.slotContext .input)).isPartial) : e.afterInput.editor = e := by
  unfold afterInput
  simp [previewed, nonempty, terms, begins, unchanged]

/-! ## Typing a character -/

/-- A character that starts a longer operator commits what is pending. -/
lemma insertChar_partial (space : c ≠ ' ')
    (begins : (e.grammar.continuations (e.typedText c) e.expected
      (e.slotContext .input)).isPartial) :
    (e.insertChar .input c).editor = (e.exchange.editor.insertPlain .input c).editor := by
  unfold insertChar
  rw [if_neg space]
  simp [Slot.isInput, Slot.index?, begins, Change.andShow, Change.andThen]

/-- A character that neither starts nor completes a token is typed as it is. -/
lemma insertChar_plain (space : c ≠ ' ')
    (whole : (e.grammar.continuations (e.typedText c) e.expected
      (e.slotContext .input)).isPartial = false)
    (text : (e.grammar.continuations (e.typedText c) e.expected
      (e.slotContext .input)).exactMatch? (e.typedText c) = none) :
    (e.insertChar .input c).editor = (e.insertPlain .input c).editor := by
  unfold insertChar
  rw [if_neg space]
  simp [Slot.isInput, Slot.index?, whole, text]

/-- A character that completes a token commits what is pending, unless it belongs to the token, and
then the token. -/
lemma insertChar_token (space : c ≠ ' ')
    (offers : e.grammar.continuations (e.typedText c) e.expected (e.slotContext .input) =
      ⟨[t], false⟩) (label : t.label = e.typedText c) :
    (e.insertChar .input c).editor =
      ((if e.expected ≠ t.kind then e.exchange.editor else { e with input := {} }).add t).editor := by
  unfold insertChar
  rw [if_neg space]
  simp only [Slot.isInput, Slot.index?, Option.isNone_none, Bool.not_true, Bool.false_eq_true,
    if_false, offers, Continuations.exactMatch?, label, if_true]
  split <;> rfl

lemma eq_of_exactMatch {options : Continuations} {text : Text} (whole : options.isPartial = false)
    (h : options.exactMatch? text = some t) : options = ⟨[t], false⟩ ∧ t.label = text := by
  obtain ⟨terms, isPartial⟩ := options
  cases whole
  unfold Continuations.exactMatch? at h
  split at h
  · rename_i only eq
    split at h
    · rename_i label
      cases h
      exact ⟨by rw [← eq], label⟩
    · cases h
  · cases h

/-- What typing a character into the trailing input comes to. -/
inductive Struck (c : Char) (e : Editor) : Editor → Prop
  /-- A space commits the preview, or is typed as it is. -/
  | space : Struck c e (e.confirmPreview .input).editor
  /-- A character that starts a longer operator commits what is pending. -/
  | begins (begins : (e.grammar.continuations (e.typedText c) e.expected
      (e.slotContext .input)).isPartial) :
      Struck c e (e.exchange.editor.insertPlain .input c).editor
  /-- A character that neither starts nor completes a token is typed as it is. -/
  | plain : Struck c e (e.insertPlain .input c).editor
  /-- A character that completes a token commits what is pending, unless it belongs to the token, and
  then the token. -/
  | token {t : Term}
      (offers : e.grammar.continuations (e.typedText c) e.expected (e.slotContext .input) =
        ⟨[t], false⟩) (label : t.label = e.typedText c) :
      Struck c e
        ((if e.expected ≠ t.kind then e.exchange.editor else { e with input := {} }).add t).editor

lemma struck_insertChar (c : Char) (e : Editor) : Struck c e (e.insertChar .input c).editor := by
  by_cases space : c = ' '
  · have eq : e.insertChar .input c = e.confirmPreview .input := by rw [insertChar, if_pos space]
    rw [eq]
    exact .space
  · cases begins : (e.grammar.continuations (e.typedText c) e.expected
        (e.slotContext .input)).isPartial with
    | true =>
      rw [insertChar_partial space begins]
      exact .begins begins
    | false =>
      cases found : (e.grammar.continuations (e.typedText c) e.expected
          (e.slotContext .input)).exactMatch? (e.typedText c) with
      | none =>
        rw [insertChar_plain space begins found]
        exact .plain
      | some t =>
        obtain ⟨offers, label⟩ := eq_of_exactMatch begins found
        rw [insertChar_token space offers label]
        exact .token offers label

/-! ## Steps -/

/-- The focus is on the trailing input, nothing is selected and no suggestion is carried. -/
structure Trailing (e : Editor) : Prop where
  focus : e.focus = .input
  selected : e.selected = []
  carried : e.carried = none

/-- What an edit of the trailing input comes to. -/
inductive Followed (e : Editor) : Editor → Prop
  /-- There is nothing to commit, or the text may still become an operator. -/
  | waiting
      (waits : e.preview = none ∨ e.input.trimmed = [] ∨ e.terms.terms = [] ∨
        (e.grammar.continuations e.input.trimmed e.expected (e.slotContext .input)).isPartial) :
      Followed e e
  /-- The text is none of the previewed kind, so the preview is committed before it. -/
  | previewed {t : Term} (preview : e.preview = some t) (other : e.input.trimmed ≠ t.label) :
      Followed e (e.add t).editor
  /-- The text is the preview and committed as such. -/
  | exchanged {t : Term} (preview : e.preview = some t) (same : e.input.trimmed = t.label) :
      Followed e e.exchange.editor

/-- What a key can do in the trailing input. -/
inductive Keyed (e : Editor) : Editor → Prop
  /-- The input is committed, unless it is blank. -/
  | exchange : Keyed e e.exchange.editor
  /-- The preview is committed. -/
  | confirm {t : Term} (previewed : e.preview = some t) : Keyed e (e.add t).editor
  /-- A character completes a token, which joins the terms behind what is pending. -/
  | complete {c : Char} {t : Term}
      (offers : e.grammar.continuations (e.typedText c) e.expected (e.slotContext .input) =
        ⟨[t], false⟩) (label : t.label = e.typedText c) :
      Keyed e
        ((if e.expected ≠ t.kind then e.exchange.editor else { e with input := {} }).add t).editor
  /-- The input is edited. -/
  | edit {change : Line → Option Line} {e' e'' : Editor} (keeps : Line.Keeps change)
      (edited : e.edit? .input change = some e') (followed : Followed e' e'') : Keyed e e''
  /-- The cursor moves. -/
  | move {change : Line → Option Line} {e' : Editor} (keeps : Line.Keeps change)
      (still : ∀ l l', change l = some l' → l'.text = l.text)
      (edited : e.edit? .input change = some e') : Keyed e e'
  /-- The last term goes. -/
  | pop (empty : e.input.isEmpty) : Keyed e e.pop.editor
  /-- The preview steps to another token of its group. -/
  | cycle {current next : Term} {forward : Bool} (previewed : e.preview = some current)
      (cycled : e.grammar.cyclePreview current forward = some next) :
      Keyed e { e with preview := some next }
  /-- The input is marked as required or not. -/
  | require (required : Bool) : Keyed e { e with required }

abbrev Keys : Editor → Editor → Prop := Relation.ReflTransGen Keyed

/-- What a key can do in the trailing input, short of completing a token. -/
inductive Steady (e : Editor) : Editor → Prop
  | exchange : Steady e e.exchange.editor
  | confirm {t : Term} (previewed : e.preview = some t) : Steady e (e.add t).editor
  | edit {change : Line → Option Line} {e' e'' : Editor} (keeps : Line.Keeps change)
      (edited : e.edit? .input change = some e') (followed : Followed e' e'') : Steady e e''
  | move {change : Line → Option Line} {e' : Editor} (keeps : Line.Keeps change)
      (still : ∀ l l', change l = some l' → l'.text = l.text)
      (edited : e.edit? .input change = some e') : Steady e e'
  | pop (empty : e.input.isEmpty) : Steady e e.pop.editor
  | cycle {current next : Term} {forward : Bool} (previewed : e.preview = some current)
      (cycled : e.grammar.cyclePreview current forward = some next) :
      Steady e { e with preview := some next }
  | require (required : Bool) : Steady e { e with required }

abbrev Steadily : Editor → Editor → Prop := Relation.ReflTransGen Steady

lemma Steady.keyed (h : Steady e e') : Keyed e e' := by
  cases h with
  | exchange => exact .exchange
  | confirm previewed => exact .confirm previewed
  | edit keeps edited followed => exact .edit keeps edited followed
  | move keeps still edited => exact .move keeps still edited
  | pop empty => exact .pop empty
  | cycle previewed cycled => exact .cycle previewed cycled
  | require required => exact .require required

lemma Steadily.keys (h : Steadily e e') : Keys e e' :=
  Relation.ReflTransGen.mono (fun _ _ => Steady.keyed) _ _ h

/-! ## What steps keep -/

lemma Trailing.exchange (h : e.Trailing) : e.exchange.editor.Trailing := by
  have cases := exchange_cases e
  generalize e.exchange = c at cases
  cases cases with
  | blank => exact h
  | added => exact ⟨h.focus, h.selected, rfl⟩

lemma Trailing.add (h : e.Trailing) (t : Term) : (e.add t).editor.Trailing :=
  ⟨h.focus, h.selected, h.carried⟩

/-- Editing the trailing input changes nothing else. -/
lemma edit_input {change : Line → Option Line} (h : e.edit? .input change = some e') :
    ∃ line, change e.input = some line ∧ e' = { e with input := line } := by
  obtain ⟨_, line, found, changed, rfl⟩ := edit_eq h
  cases found
  exact ⟨line, changed, rfl⟩

lemma Trailing.edit {change : Line → Option Line} (h : e.Trailing)
    (edited : e.edit? .input change = some e') : e'.Trailing := by
  obtain ⟨_, _, rfl⟩ := edit_input edited
  exact ⟨h.focus, h.selected, h.carried⟩

/-- With the focus on the trailing input, removing the last term moves nothing else. -/
lemma pop_cases (focus : e.focus = .input) :
    e.pop.editor = e ∨ e.pop.editor = (e.without (e.terms.length - 1)).reposition := by
  unfold pop
  split
  · cases held : e.terms.get? (e.terms.length - 1) with
    | none =>
      left
      rw [remove_absent held]
      rfl
    | some t =>
      right
      have same : (e.without (e.terms.length - 1)).focus = .input := focus
      rw [remove_eq held]
      simp only [refocus, same]
      rfl
  · exact .inl rfl

lemma Trailing.pop (h : e.Trailing) : e.pop.editor.Trailing := by
  rcases pop_cases h.focus with eq | eq <;> rw [eq]
  · exact h
  · refine ⟨h.focus, ?_, h.carried⟩
    have selected : (e.without (e.terms.length - 1)).reposition.selected =
        (e.selected.filter (· ≠ e.terms.length - 1)).map (shiftIndex (e.terms.length - 1)) := rfl
    rw [selected, h.selected]
    rfl

lemma Followed.trailing (h : Followed e e') (he : e.Trailing) : e'.Trailing := by
  cases h with
  | waiting => exact he
  | previewed => exact he.add _
  | exchanged => exact he.exchange

lemma Keyed.trailing (h : Keyed e e') (he : e.Trailing) : e'.Trailing := by
  cases h with
  | exchange => exact he.exchange
  | confirm => exact he.add _
  | complete =>
    apply Trailing.add
    split
    · exact he.exchange
    · exact ⟨he.focus, he.selected, he.carried⟩
  | edit _ edited followed => exact followed.trailing (he.edit edited)
  | move _ _ edited => exact he.edit edited
  | pop => exact he.pop
  | cycle => exact ⟨he.focus, he.selected, he.carried⟩
  | require => exact ⟨he.focus, he.selected, he.carried⟩

lemma Keys.trailing (h : Keys e e') (he : e.Trailing) : e'.Trailing := by
  induction h with
  | refl => exact he
  | tail _ step ih => exact step.trailing ih

/-- What each keystroke keeps, a sequence of them keeps. -/
lemma Keys.invariant {P : Editor → Prop} (step : ∀ e e', e.Trailing → Keyed e e' → P e → P e')
    (h : Keys e e') (trailing : e.Trailing) (he : P e) : P e' := by
  induction h with
  | refl => exact he
  | tail before key ih => exact step _ _ (Keys.trailing before trailing) key ih

/-- What every step of an update preserves, a keystroke preserves. -/
lemma Keyed.invariant {P : Editor → Prop}
    (step : ∀ e placed c, Step .editing e placed c → P e → P c.editor) (h : Keyed e e')
    (he : P e) : P e' := by
  have exchange : ∀ e : Editor, P e → P e.exchange.editor := fun e =>
    (trace_exchange e).invariant step
  cases h with
  | exchange => exact exchange e he
  | confirm previewed => exact step _ _ _ (.confirm previewed) he
  | @complete c t offers label =>
    have single : (⟨[t], false⟩ : Continuations).exactMatch? (e.typedText c) = some t := by
      simp [Continuations.exactMatch?, label]
    have kind : t.kind.isSome := Grammar.kind_of_exactMatch (offers ▸ single)
    refine step _ _ _ (.add fun _ => kind) ?_
    split
    · exact exchange e he
    · exact step _ _ _ .clear he
  | edit keeps edited followed =>
    have written := step _ _ _ (.write keeps edited) he
    cases followed with
    | waiting => exact written
    | previewed preview => exact step _ _ _ (.confirm preview) written
    | exchanged => exact exchange _ written
  | move keeps still edited => exact step _ _ _ (.move keeps still edited) he
  | pop => exact (trace_pop e).invariant step he
  | cycle previewed cycled => exact step _ _ _ (.cycle previewed cycled) he
  | require required => exact step _ _ _ (.require required) he

/-! ## Messages as keystrokes -/

/-- After an edit is followed, the selection goes, unless the text may still become an operator. -/
lemma afterInput_cases (e : Editor) :
    ∃ e', Followed e e' ∧
      (e.afterInput.editor = e' ∨ e.afterInput.editor = e'.clearSelected.editor) := by
  unfold afterInput
  split
  · rename_i none
    exact ⟨e, .waiting (.inl none), .inr rfl⟩
  · rename_i t preview
    dsimp only
    split
    · rename_i idle
      rcases Bool.or_eq_true_iff.mp idle with blank | bare
      · exact ⟨e, .waiting (.inr (.inl (List.isEmpty_iff.mp blank))), .inr rfl⟩
      · have bare : e.terms.terms = [] := by simpa [hasTerms, Sequence.isEmpty] using bare
        exact ⟨e, .waiting (.inr (.inr (.inl bare))), .inr rfl⟩
    · split
      · rename_i begins
        exact ⟨e, .waiting (.inr (.inr (.inr begins))), .inl rfl⟩
      · split
        · rename_i other
          exact ⟨_, .previewed preview other, .inr rfl⟩
        · rename_i same
          exact ⟨_, .exchanged preview (not_not.mp same), .inr rfl⟩

lemma followed_afterInput (h : e.Trailing) : Followed e e.afterInput.editor := by
  obtain ⟨e', followed, eq | eq⟩ := afterInput_cases e
  · rw [eq]
    exact followed
  · rw [eq, clearSelected_of_empty (followed.trailing h).selected]
    exact followed

lemma steadily_editSlot {change : Line → Option Line} (keeps : Line.Keeps change) (h : e.Trailing) :
    Steadily e (e.editSlot .input change).editor := by
  unfold editSlot
  split
  · exact .refl
  · rename_i e' edited
    exact .single (.edit keeps edited (followed_afterInput (h.edit edited)))

lemma steadily_insertPlain (h : e.Trailing) (c : Char) : Steadily e (e.insertPlain .input c).editor :=
  steadily_editSlot (Line.keeps_insertChar c) h

lemma steadily_confirmPreview (h : e.Trailing) : Steadily e (e.confirmPreview .input).editor := by
  unfold confirmPreview
  split
  · dsimp only
    split
    · rename_i previewed
      exact .single (.confirm previewed)
    · exact .refl
  · exact steadily_insertPlain h ' '

/-- A character is typed as any key is, or it completes a token. -/
lemma insertChar_cases (h : e.Trailing) (c : Char) :
    Steadily e (e.insertChar .input c).editor ∨
      ∃ t, e.grammar.continuations (e.typedText c) e.expected (e.slotContext .input) =
          ⟨[t], false⟩ ∧ t.label = e.typedText c ∧
        (e.insertChar .input c).editor =
          ((if e.expected ≠ t.kind then e.exchange.editor
            else { e with input := {} }).add t).editor := by
  have struck := struck_insertChar c e
  generalize (e.insertChar .input c).editor = typed at struck ⊢
  cases struck with
  | space => exact .inl (steadily_confirmPreview h)
  | begins => exact .inl (.head .exchange (steadily_insertPlain h.exchange c))
  | plain => exact .inl (steadily_insertPlain h c)
  | token offers label => exact .inr ⟨_, offers, label, rfl⟩

lemma keys_insertChar (h : e.Trailing) (c : Char) : Keys e (e.insertChar .input c).editor := by
  rcases insertChar_cases h c with steadily | ⟨t, offers, label, eq⟩
  · exact steadily.keys
  · rw [eq]
    exact .single (.complete offers label)

lemma steadily_deleteBackward (h : e.Trailing) : Steadily e (e.deleteBackward .input).editor := by
  have cleared := clearSelected_of_empty h.selected
  have eq : (e.deleteBackward .input).editor =
      (if e.input.isEmpty then e.pop else e.editSlot .input Line.deleteBackward?).editor := by
    simp only [deleteBackward, Slot.isInput, Slot.index?, Option.isNone_none, if_true, cleared]
    rfl
  rw [eq]
  split
  · rename_i empty
    exact .single (.pop empty)
  · exact steadily_editSlot Line.keeps_deleteBackward h

lemma steadily_deleteForward (h : e.Trailing) : Steadily e (e.deleteForward .input).editor := by
  have edited : Steadily e (e.editSlot .input Line.deleteForward?).editor :=
    steadily_editSlot Line.keeps_deleteForward h
  have cleared := clearSelected_of_empty (edited.keys.trailing h).selected
  have eq : (e.deleteForward .input).editor = (e.editSlot .input Line.deleteForward?).editor := by
    simp only [deleteForward, Slot.isInput, Slot.index?, Option.isNone_none, if_true,
      Change.andShow, Change.andThen, cleared, unchanged]
  rw [eq]
  exact edited

lemma deselect_of_empty (h : e.selected = []) : e.deselect.editor = e := by
  obtain ⟨_, _, _, _, _, _, _, _, _, _, _, _⟩ := e
  cases h
  rfl

lemma steadily_cyclePreview (direction : Direction) (e : Editor) :
    Steadily e (e.cyclePreview direction).editor := by
  unfold cyclePreview
  dsimp only
  split
  · exact .refl
  · rename_i next h
    obtain ⟨current, previewed, cycled⟩ := Option.bind_eq_some_iff.mp h
    exact .single (.cycle previewed cycled)

lemma steadily_moveInSlot {change : Line → Option Line} (keeps : Line.Keeps change)
    (still : ∀ l l', change l = some l' → l'.text = l.text) :
    Steadily e (e.moveInSlot .input change) := by
  unfold moveInSlot
  cases edited : e.edit? .input change with
  | none => exact .refl
  | some e' => exact .single (.move keeps still edited)

lemma steadily_moveSideways {atEdge : Line → Bool} {move : Line → Option Line}
    {target : Editor → Option Slot} (keeps : Line.Keeps move)
    (still : ∀ l l', move l = some l' → l'.text = l.text) (h : e.Trailing) :
    Steadily e (e.moveSideways .input atEdge move target).editor := by
  -- At the edge the focus is only asked to move; the editor stays as it is.
  have moved : Steadily e
      (if (e.line? .input).any atEdge && e.hasTerms then (⟨e, focusEffects (target e)⟩ : Change)
        else (e.moveInSlot .input move).unchanged).editor := by
    split
    · exact .refl
    · exact steadily_moveInSlot keeps still
  have eq := deselect_of_empty (moved.keys.trailing h).selected
  rw [← eq] at moved
  exact moved

lemma steadily_moveCursor (direction : Direction) (h : e.Trailing) :
    Steadily e (e.moveCursor .input direction).editor := by
  cases direction with
  | up => exact steadily_cyclePreview .up e
  | down => exact steadily_cyclePreview .down e
  | left => exact steadily_moveSideways Line.keeps_moveLeft Line.text_moveLeft h
  | right => exact steadily_moveSideways Line.keeps_moveRight Line.text_moveRight h

lemma steadily_moveEnd (h : e.Trailing) : Steadily e (e.moveEnd .input).editor := by
  have moved : Steadily e (e.moveInSlot .input fun line => some line.moveEnd) :=
    steadily_moveInSlot Line.keeps_moveEnd fun _ _ h => by cases h; rfl
  have eq := deselect_of_empty (moved.keys.trailing h).selected
  rw [← eq] at moved
  exact moved

lemma steadily_commitPreview (e : Editor) : Steadily e (e.commitPreview .input).editor := by
  unfold commitPreview
  split
  · rename_i previewed
    exact .single (.confirm previewed)
  · exact .refl

lemma steadily_submit (e : Editor) : Steadily e e.submit.editor := by
  have marked : Steadily e.exchange.editor e.exchange.editor.markRequired.editor := by
    unfold markRequired
    split
    · exact .single (.require _)
    · exact .refl
  exact .head .exchange marked

/-- A message that types neither a character nor a text completes no token. -/
lemma steadily_respond {message : Message} (typing : message.isTyping)
    (char : ∀ c, message ≠ .insertChar c) (text : ∀ text, message ≠ .insertText text)
    (h : e.Trailing) : Steadily e (e.respond message).editor := by
  have focus := h.focus
  cases message with
  | insertChar c => exact (char c rfl).elim
  | insertText => exact (text _ rfl).elim
  | deleteBackward => rw [respond, focus]; exact steadily_deleteBackward h
  | deleteForward => rw [respond, focus]; exact steadily_deleteForward h
  | moveCursor direction => rw [respond, focus]; exact steadily_moveCursor direction h
  | moveStart =>
    rw [respond, focus]
    exact steadily_moveInSlot Line.keeps_moveStart fun _ _ h => by cases h; rfl
  | moveEnd => rw [respond, focus]; exact steadily_moveEnd h
  | confirmPreview => rw [respond, focus]; exact steadily_confirmPreview h
  | commitPreview => rw [respond, focus]; exact steadily_commitPreview e
  | cyclePreview direction => exact steadily_cyclePreview direction e
  | exchange => exact .single .exchange
  | submit => exact steadily_submit e
  | _ => cases typing

lemma respond_insertChar (h : e.Trailing) (c : Char) :
    e.respond (.insertChar c) = e.insertChar .input c := by
  rw [respond, h.focus]

/-! ## Strokes -/

/-- A text is typed character by character. -/
lemma insertText_eq_run (text : Text) (e : Editor) :
    (e.insertText text).editor = e.run (text.map .insertChar) := by
  suffices key : ∀ c : Change,
      (text.foldl (fun change c => change.andThen fun e => e.insertChar e.focus c) c).editor =
        c.editor.run (text.map .insertChar) from key e.unchanged
  induction text with
  | nil => exact fun _ => rfl
  | cons x rest ih => exact fun c => ih (c.andThen fun e => e.insertChar e.focus x)

/-- A message and its strokes leave the same editor. -/
lemma run_strokes (e : Editor) (messages : List Message) :
    e.run (messages.flatMap Message.strokes) = e.run messages := by
  induction messages generalizing e with
  | nil => rfl
  | cons message rest ih =>
    have first : e.run message.strokes = (e.respond message).editor := by
      cases message with
      | insertText text => exact (insertText_eq_run text e).symm
      | _ => rfl
    rw [List.flatMap_cons, run_append, first]
    exact ih _

/-- A stroke is a character of a pasted text, or the message itself. -/
lemma strokes_cases {message stroke : Message} (h : stroke ∈ message.strokes) :
    (∃ text c, message = .insertText text ∧ stroke = .insertChar c) ∨
      stroke = message ∧ ∀ text, message ≠ .insertText text := by
  cases message with
  | insertText text =>
    obtain ⟨c, _, rfl⟩ := List.mem_map.mp h
    exact .inl ⟨text, c, rfl, rfl⟩
  | _ =>
    cases List.mem_singleton.mp h
    exact .inr ⟨rfl, nofun⟩

lemma isTyping_strokes {message stroke : Message} (typing : message.isTyping)
    (h : stroke ∈ message.strokes) : stroke.isTyping := by
  rcases strokes_cases h with ⟨_, _, _, rfl⟩ | ⟨rfl, _⟩
  · rfl
  · exact typing

lemma scope_of_strokes {message stroke : Message} (h : stroke ∈ message.strokes) :
    stroke.scope = message.scope := by
  rcases strokes_cases h with ⟨_, _, rfl, rfl⟩ | ⟨rfl, _⟩
  · rfl
  · rfl

lemma ne_insertText_of_strokes {message stroke : Message} (h : stroke ∈ message.strokes)
    (text : Text) : stroke ≠ .insertText text := by
  rcases strokes_cases h with ⟨_, _, _, rfl⟩ | ⟨rfl, single⟩
  · exact nofun
  · exact single text

lemma keys_insertText (h : e.Trailing) (text : Text) : Keys e (e.insertText text).editor := by
  rw [insertText_eq_run]
  induction text generalizing e with
  | nil => exact .refl
  | cons c rest ih =>
    have first : Keys e (e.respond (.insertChar c)).editor := by
      rw [respond_insertChar h]
      exact keys_insertChar h c
    exact first.trans (ih (first.trailing h))

/-- A message that types comes down to keystrokes in the trailing input. -/
lemma keys_respond {message : Message} (typing : message.isTyping) (h : e.Trailing) :
    Keys e (e.respond message).editor := by
  cases message with
  | insertChar c =>
    rw [respond_insertChar h]
    exact keys_insertChar h c
  | insertText text => exact keys_insertText h text
  | _ => exact (steadily_respond typing nofun nofun h).keys

/-- What every keystroke keeps holds after every run of messages that type. -/
lemma typing_invariant {P : Editor → Prop} (step : ∀ e e', e.Trailing → Keyed e e' → P e → P e')
    {messages : List Message} (typing : ∀ message ∈ messages, message.isTyping) (h : e.Trailing)
    (he : P e) : P (e.run messages) := by
  induction messages generalizing e with
  | nil => exact he
  | cons message rest ih =>
    have keys := keys_respond (typing message List.mem_cons_self) h
    exact ih (fun m hm => typing m (List.mem_cons_of_mem _ hm)) (keys.trailing h)
      (keys.invariant step h he)

end Editor
end FilterEditor
