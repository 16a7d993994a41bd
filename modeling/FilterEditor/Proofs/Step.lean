import FilterEditor.Editor.Update
import FilterEditor.Proofs.Commit
import FilterEditor.Proofs.Grammar
import FilterEditor.Proofs.Line

/-!
# Steps

Every message is answered by small steps, one after the other: terms join the sequence or leave it,
a line is edited, a mark is set, something is shown. `Step` lists them, `Trace` strings them
together, and `settled_respond` says once that nothing else happens. What every step preserves,
every message preserves.

Committing and removing terms may leave the placeholder out of date, so these two steps are set apart
from all others: a trace that takes them is `Settled` only once the placeholder is shown again.

A message that saves a draft, takes a suggestion or loads terms does what no other message does.
Steps of that sort are bound to the scope of the message, so that a property that only saving can
break is known to survive everything else.
-/

namespace FilterEditor

/-- What sets a message apart from plain editing. -/
inductive Scope where
  | editing
  /-- A draft may be saved. -/
  | saving
  /-- A suggestion may be written into a slot. -/
  | suggesting
  /-- Terms may be loaded. -/
  | loading
deriving DecidableEq

/-- The scope of a message. -/
def Message.scope : Message → Scope
  | .save _ | .focused _ => .saving
  | .suggestion _ _ | .completion _ _ => .suggesting
  | .load _ => .loading
  | _ => .editing

namespace Editor

/-- An effect that shows or tells something about an editor as it is. -/
inductive Shows (e : Editor) : Effect → Prop
  | placeholder : Shows e (.setPlaceholder e.placeholder)
  | notify (event : Event) : Shows e (.notify event)
  | focus (slot : Slot) : Shows e (.focus slot)
  | submit : Shows e (.submit e.serialized)

/-- One step of a change to an editor, which leaves the placeholder as it should be or may not. -/
inductive Step (scope : Scope) (e : Editor) : Bool → Change → Prop
  /-- A term is committed; where a kind is expected, the term has one. -/
  | add {t : Term} (kind : e.expected.isSome → t.kind.isSome) : Step scope e false (e.add t)
  /-- The preview is committed. -/
  | confirm {t : Term} (previewed : e.preview = some t) : Step scope e true (e.add t)
  /-- The carried suggestion is used up. -/
  | forget : Step scope e true { e with carried := none }.unchanged
  /-- The trailing input is emptied. -/
  | clear : Step scope e true ⟨{ e with input := {} }, [.writeValue .input []]⟩
  /-- A term is removed. -/
  | remove {index : Nat} {t : Term} (held : e.terms.get? index = some t) :
      Step scope e false (e.remove index)
  | selectAll : Step scope e true e.selectAll
  | deselect : Step scope e true e.deselect
  | select {index : Nat} (lt : index < e.terms.length) (new : index ∉ e.selected) :
      Step scope e true
        ⟨{ e with selected := insertIndex index e.selected }, [.setSelected index true]⟩
  | unselect {index : Nat} (lt : index < e.terms.length) (old : index ∈ e.selected) :
      Step scope e true
        ⟨{ e with selected := e.selected.filter (· ≠ index) }, [.setSelected index false]⟩
  /-- The text of a slot is edited and written. -/
  | write {slot : Slot} {change : Line → Option Line} {e' : Editor} (keeps : Line.Keeps change)
      (edited : e.edit? slot change = some e')
      (focus : ∀ index, slot = .term index → e.focus = slot := by nofun) :
      Step scope e true ⟨e', e'.writeEffects slot⟩
  /-- The cursor of a slot moves. -/
  | move {slot : Slot} {change : Line → Option Line} {e' : Editor} (keeps : Line.Keeps change)
      (still : ∀ l l', change l = some l' → l'.text = l.text)
      (edited : e.edit? slot change = some e') : Step scope e true e'.unchanged
  /-- The draft of the slot in focus is found valid. -/
  | validate {index : Nat} (focus : e.focus = .term index) :
      Step scope e true ⟨{ e with validity := none }, [.setValidity (.term index) none]⟩
  /-- The draft of the slot in focus is found invalid. -/
  | invalidate {index : Nat} {message : Text} (focus : e.focus = .term index) :
      Step scope e true
        ⟨{ e with validity := some message },
          [.setValidity (.term index) (some message), .reportValidity (.term index)]⟩
  /-- The preview steps to another token of its group. -/
  | cycle {current next : Term} {forward : Bool} (previewed : e.preview = some current)
      (cycled : e.grammar.cyclePreview current forward = some next) :
      Step scope e true ⟨{ e with preview := some next }, [.showPreview (some next.label)]⟩
  /-- A draft is accepted. -/
  | accept (saving : scope = .saving) : Step scope e true { e with validity := none }.unchanged
  /-- A blank draft turns back into the label. -/
  | revert {index : Nat} {t : Term} (saving : scope = .saving) (focus : e.focus = .term index)
      (held : e.terms.get? index = some t) :
      Step scope e true
        ⟨{ e with draft := some (Line.ofText t.label) }, [.writeValue (.term index) t.label]⟩
  /-- A term takes the place of another, whose kind it keeps. -/
  | replace {index : Nat} {old t : Term} (saving : scope = .saving)
      (held : e.terms.get? index = some old) (kind : old.kind.isSome → t.kind = old.kind) :
      Step scope e true
        ⟨{ e with terms := e.terms.withTerms (e.terms.terms.set index t) },
          [.updateTerm index t,
            .syncValue (e.terms.withTerms (e.terms.terms.set index t)).serialized]⟩
  /-- The focus moves to a term slot. -/
  | enterTerm {index : Nat} {t : Term} (saving : scope = .saving)
      (held : e.terms.get? index = some t) :
      Step scope e true
        { e with
          focus := .term index, validity := none, draft := some (Line.ofText t.label) }.unchanged
  /-- The focus moves to the trailing input. -/
  | enterInput (saving : scope = .saving) :
      Step scope e true
        ⟨{ e with
            focus := .input, validity := none, draft := none,
            preview := e.grammar.previewFor e.expected },
          [.showPreview ((e.grammar.previewFor e.expected).map (·.label))]⟩
  /-- A suggestion is written into the trailing input. -/
  | suggestInput {t : Term} (suggesting : scope = .suggesting) :
      Step scope e true
        ⟨{ e with input := Line.ofText t.label, carried := some t }, [.writeValue .input t.label]⟩
  /-- A suggestion is written into the draft of the slot in focus. -/
  | suggestTerm {index : Nat} {t : Term} (suggesting : scope = .suggesting)
      (focus : e.focus = .term index) :
      Step scope e true
        ⟨{ e with draft := some (Line.ofText t.label), carried := some t },
          [.writeValue (.term index) t.label]⟩
  /-- Other terms take the place of all terms. -/
  | reload {terms : List Term} (loading : terms = [] ∨ scope = .loading)
      (accepted : checkTerms e.grammar terms = .ok ()) :
      Step scope e true
        ⟨e.restore terms,
          e.removalEffects ++ (e.restore terms).renderEffects ++ (e.restore terms).settledEffects⟩
  /-- Terms that are already shown take the place of all terms. -/
  | adopt {terms : List Term} (loading : scope = .loading)
      (accepted : checkTerms e.grammar terms = .ok ()) :
      Step scope e true ⟨e.restore terms, (e.restore terms).settledEffects⟩
  | refresh (editing : scope = .editing) : Step scope e true e.refresh
  | require (required : Bool) :
      Step scope e true ⟨{ e with required }, [.setRequired required]⟩
  | show {effects : List Effect} (shows : ∀ effect ∈ effects, e.Shows effect) :
      Step scope e true ⟨e, effects⟩

/-- A change made of steps. -/
inductive Trace (scope : Scope) (e : Editor) : Change → Prop
  | nil : Trace scope e e.unchanged
  | snoc {c d placed} :
      Trace scope e c → Step scope c.editor placed d → Trace scope e (c.andThen fun _ => d)

/-- A change made of steps that shows the placeholder whenever a step may have put it out of date. -/
inductive Settled (scope : Scope) (e : Editor) : Change → Prop
  | nil : Settled scope e e.unchanged
  | snoc {c d} :
      Settled scope e c → Step scope c.editor true d → Settled scope e (c.andThen fun _ => d)
  | settle {c} : Trace scope e c → Settled scope e (c.andShow placeholderEffects)

variable {scope : Scope} {e : Editor} {placed : Bool} {c : Change}

lemma andThen_unchanged (c : Change) : c.andThen (fun _ => c.editor.unchanged) = c := by
  simp [Change.andThen, unchanged]

lemma andThen_assoc (c d d' : Change) :
    (c.andThen fun _ => d.andThen fun _ => d') = (c.andThen fun _ => d).andThen fun _ => d' := by
  simp [Change.andThen]

namespace Trace

lemma of (h : Step scope e placed c) : Trace scope e c := snoc nil h

lemma andThen {step : Editor → Change} (h : Trace scope e c)
    (h' : Trace scope c.editor (step c.editor)) : Trace scope e (c.andThen step) := by
  suffices key : ∀ d, Trace scope c.editor d → Trace scope e (c.andThen fun _ => d) from
    key _ h'
  intro d hd
  induction hd with
  | nil =>
    rw [andThen_unchanged]
    exact h
  | @snoc d d' _ _ step ih =>
    rw [andThen_assoc]
    exact ih.snoc step

lemma andShow {effects : Editor → List Effect} (h : Trace scope e c)
    (shows : ∀ effect ∈ effects c.editor, c.editor.Shows effect) :
    Trace scope e (c.andShow effects) :=
  h.snoc (.show shows)

/-- What every step preserves, a trace preserves. -/
lemma invariant {P : Editor → Prop} (h : Trace scope e c)
    (step : ∀ e placed c, Step scope e placed c → P e → P c.editor) (he : P e) : P c.editor := by
  induction h with
  | nil => exact he
  | @snoc c d placed _ hd ih => exact step c.editor placed d hd ih

end Trace

/-- The placeholder shows the editor as it is. -/
lemma shows_placeholder (e : Editor) : ∀ effect ∈ e.placeholderEffects, e.Shows effect := by
  intro effect h
  cases List.mem_singleton.mp h
  exact .placeholder

lemma shows_request (e : Editor) (slot : Slot) (label : Text) :
    ∀ effect ∈ e.requestEffects slot label, e.Shows effect := by
  intro effect h
  unfold requestEffects at h
  split at h
  · cases List.mem_singleton.mp h
    exact .notify _
  · cases h

lemma shows_focus (e : Editor) (slot : Option Slot) :
    ∀ effect ∈ focusEffects slot, e.Shows effect := by
  intro effect h
  obtain ⟨target, _, rfl⟩ := List.mem_map.mp h
  exact .focus target

namespace Settled

lemma of (h : Step scope e true c) : Settled scope e c := snoc nil h

lemma trace (h : Settled scope e c) : Trace scope e c := by
  induction h with
  | nil => exact .nil
  | snoc _ step ih => exact ih.snoc step
  | settle h => exact h.andShow (shows_placeholder _)

lemma andThen {step : Editor → Change} (h : Settled scope e c)
    (h' : Settled scope c.editor (step c.editor)) : Settled scope e (c.andThen step) := by
  suffices key : ∀ d, Settled scope c.editor d → Settled scope e (c.andThen fun _ => d) from
    key _ h'
  intro d hd
  induction hd with
  | nil =>
    rw [andThen_unchanged]
    exact h
  | @snoc d d' _ step ih =>
    rw [andThen_assoc]
    exact ih.snoc step
  | @settle d hd =>
    -- What came before is settled as well, but only its steps matter: the placeholder is shown last.
    have both : Trace scope e (c.andThen fun _ => d) := h.trace.andThen hd
    have eq : (c.andThen fun _ => d.andShow placeholderEffects)
        = (c.andThen fun _ => d).andShow placeholderEffects := by
      simp [Change.andThen, Change.andShow]
    rw [eq]
    exact .settle both

lemma andShow {effects : Editor → List Effect} (h : Settled scope e c)
    (shows : ∀ effect ∈ effects c.editor, c.editor.Shows effect) :
    Settled scope e (c.andShow effects) :=
  h.snoc (.show shows)

end Settled

/-! ## Committing and removing -/

lemma trace_exchange (e : Editor) : Trace scope e e.exchange := by
  have h := exchange_cases e
  generalize e.exchange = c at h
  cases h with
  | blank => exact .nil
  | @added t read =>
    -- The term is read before the suggestion is used up, so its kind speaks of `e` itself.
    have notified : Trace scope e
        ({ e with carried := none }.unchanged.andShow fun _ => [.notify .resetCompletion]) := by
      refine Trace.andShow (.of .forget) ?_
      intro effect h
      cases List.mem_singleton.mp h
      exact .notify _
    have add : Step scope { e with carried := none } false ({ e with carried := none }.add t) :=
      .add fun h => reading_kind_isSome (e := e) read h
    exact (notified.snoc add).snoc .clear

/-- Where there is no term, none is removed. -/
lemma remove_absent {index : Nat} (absent : e.terms.get? index = none) :
    e.remove index = e.unchanged := by
  simp only [remove, Sequence.remove?, show e.terms.terms[index]? = none from absent]

lemma trace_remove (index : Nat) (e : Editor) : Trace scope e (e.remove index) := by
  cases held : e.terms.get? index with
  | none =>
    rw [remove_absent held]
    exact .nil
  | some t => exact .of (.remove held)

/-- Removing terms one after the other is a trace. -/
lemma Trace.removals (indices : List Nat) (h : Trace scope e c) :
    Trace scope e (indices.foldl (fun c index => c.andThen (Editor.remove index)) c) := by
  induction indices generalizing c with
  | nil => exact h
  | cons index rest ih => exact ih (h.andThen (trace_remove index _))

lemma trace_clearSelected (e : Editor) : Trace scope e e.clearSelected := by
  unfold clearSelected
  split
  · exact Trace.removals _ .nil
  · exact .nil

lemma trace_pop (e : Editor) : Trace scope e e.pop := by
  unfold pop
  split
  · apply Trace.andShow (trace_remove _ e)
    intro effect h
    cases List.mem_singleton.mp h
    exact .notify _
  · exact .nil

/-! ## Typing -/

lemma settled_afterInput (e : Editor) : Settled scope e e.afterInput := by
  have finish : ∀ c : Change, Trace scope e c →
      Settled scope e (((c.andShow fun e => e.requestEffects .input e.input.text).andThen
        Editor.clearSelected).andShow placeholderEffects) := by
    intro c hc
    exact .settle ((hc.andShow (shows_request _ _ _)).andThen (trace_clearSelected _))
  unfold afterInput
  split
  · exact finish _ .nil
  · rename_i preview hp
    dsimp only
    split
    · exact finish _ .nil
    · split
      · exact .nil
      · apply finish
        refine Trace.andShow ?_ (shows_placeholder _)
        split
        · exact .of (.confirm hp)
        · exact trace_exchange e

lemma settled_afterTermEdit {index : Nat} (focus : e.focus = .term index) :
    Settled scope e (e.afterTermEdit (.term index)) := by
  unfold afterTermEdit
  dsimp only
  split
  · exact .of (.invalidate focus)
  · exact (Settled.of (.validate focus)).snoc (.show (shows_request _ _ _))

lemma edit_focus {slot : Slot} {change : Line → Option Line} {e' : Editor}
    (h : e.edit? slot change = some e') : e'.focus = e.focus := by
  obtain ⟨line, _, rfl⟩ := Option.map_eq_some_iff.mp h
  cases slot <;> rfl

/-- Editing a slot is a trace, if a term slot is only edited while it is in focus. -/
lemma settled_editSlot {slot : Slot} {change : Line → Option Line} (keeps : Line.Keeps change)
    (focus : ∀ index, slot = .term index → e.focus = slot) :
    Settled scope e (e.editSlot slot change) := by
  unfold editSlot
  split
  · exact .nil
  · rename_i e' he
    refine Settled.andThen (.of (.write keeps he focus)) ?_
    cases slot with
    | input => exact settled_afterInput e'
    | term index =>
      apply settled_afterTermEdit
      rw [edit_focus he]
      exact focus index rfl

lemma settled_insertPlain {slot : Slot} (c : Char)
    (focus : ∀ index, slot = .term index → e.focus = slot) :
    Settled scope e (e.insertPlain slot c) :=
  settled_editSlot (Line.keeps_insertChar c) focus

lemma settled_confirmPreview {slot : Slot}
    (focus : ∀ index, slot = .term index → e.focus = slot) :
    Settled scope e (e.confirmPreview slot) := by
  unfold confirmPreview
  split
  · refine Settled.andShow ?_ (shows_request _ _ _)
    split
    · rename_i hp
      exact .of (.confirm hp)
    · exact .nil
  · exact settled_insertPlain ' ' focus

lemma settled_insertChar {slot : Slot} (c : Char)
    (focus : ∀ index, slot = .term index → e.focus = slot) :
    Settled scope e (e.insertChar slot c) := by
  unfold insertChar
  split
  · exact settled_confirmPreview focus
  · split
    · exact settled_insertPlain c focus
    · rename_i hslot
      have input : slot = .input := by cases slot <;> simp_all [Slot.isInput, Slot.index?]
      subst input
      dsimp only
      split
      · exact (Settled.settle (trace_exchange e)).andThen (settled_insertPlain c (by rintro _ ⟨⟩))
      · split
        · exact settled_insertPlain c (by rintro _ ⟨⟩)
        · rename_i token hm
          refine .settle (Trace.andThen ?_ (.of (.add fun _ => Grammar.kind_of_exactMatch hm)))
          split
          · exact trace_exchange e
          · exact .of .clear

lemma settled_insertText (text : Text) (e : Editor) : Settled scope e (e.insertText text) := by
  suffices key : ∀ c, Settled scope e c →
      Settled scope e (text.foldl (fun change c => change.andThen fun e => e.insertChar e.focus c) c)
    from key _ .nil
  induction text with
  | nil => exact fun _ h => h
  | cons x rest ih => exact fun c h => ih _ (h.andThen (settled_insertChar x fun _ _ => rfl))

lemma settled_deleteBackward (e : Editor) : Settled scope e (e.deleteBackward e.focus) := by
  unfold deleteBackward
  split
  · rename_i hslot
    have input : e.focus = .input := by cases h : e.focus <;> simp_all [Slot.isInput, Slot.index?]
    refine .settle ((trace_clearSelected e).andThen ?_)
    split
    · exact trace_pop _
    · rw [input]
      exact Settled.trace (settled_editSlot Line.keeps_deleteBackward (by rintro _ ⟨⟩))
  · exact settled_editSlot Line.keeps_deleteBackward fun _ _ => rfl

lemma settled_deleteForward (e : Editor) : Settled scope e (e.deleteForward e.focus) := by
  have deleted : Settled scope e (e.editSlot e.focus Line.deleteForward?) :=
    settled_editSlot Line.keeps_deleteForward fun _ _ => rfl
  unfold deleteForward
  dsimp only
  split
  · exact .settle (deleted.trace.andThen (trace_clearSelected _))
  · exact deleted

lemma settled_cyclePreview (direction : Direction) (e : Editor) :
    Settled scope e (e.cyclePreview direction) := by
  unfold cyclePreview
  dsimp only
  split
  · exact .nil
  · rename_i next h
    obtain ⟨current, previewed, cycled⟩ := Option.bind_eq_some_iff.mp h
    exact .of (.cycle previewed cycled)

lemma settled_moveInSlot {slot : Slot} {change : Line → Option Line} (keeps : Line.Keeps change)
    (still : ∀ l l', change l = some l' → l'.text = l.text) :
    Settled scope e (e.moveInSlot slot change).unchanged := by
  unfold moveInSlot
  cases h : e.edit? slot change with
  | none => exact .nil
  | some e' => exact .of (.move keeps still h)

lemma settled_moveSideways {slot : Slot} {atEdge : Line → Bool} {move : Line → Option Line}
    {target : Editor → Option Slot} (keeps : Line.Keeps move)
    (still : ∀ l l', move l = some l' → l'.text = l.text) :
    Settled scope e (e.moveSideways slot atEdge move target) := by
  have moved : Settled scope e
      (if (e.line? slot).any atEdge && e.hasTerms then ⟨e, focusEffects (target e)⟩
        else (e.moveInSlot slot move).unchanged) := by
    split
    · exact .of (.show (shows_focus e _))
    · exact settled_moveInSlot keeps still
  unfold moveSideways
  dsimp only
  split
  · exact moved.andThen (.of .deselect)
  · exact moved

lemma settled_moveCursor (direction : Direction) {slot : Slot} :
    Settled scope e (e.moveCursor slot direction) := by
  cases direction with
  | up => exact settled_cyclePreview .up e
  | down => exact settled_cyclePreview .down e
  | left => exact settled_moveSideways Line.keeps_moveLeft Line.text_moveLeft
  | right => exact settled_moveSideways Line.keeps_moveRight Line.text_moveRight

lemma settled_moveStart (slot : Slot) : Settled scope e (e.moveStart slot) :=
  settled_moveInSlot Line.keeps_moveStart fun _ _ h => by cases h; rfl

lemma settled_moveEnd (slot : Slot) : Settled scope e (e.moveEnd slot) := by
  have moved : Settled scope e (e.moveInSlot slot fun line => some line.moveEnd).unchanged :=
    settled_moveInSlot Line.keeps_moveEnd fun _ _ h => by cases h; rfl
  unfold moveEnd
  dsimp only
  split
  · have ended : Settled scope e
        ((e.moveInSlot slot fun line => some line.moveEnd).unchanged.andThen Editor.deselect) :=
      moved.andThen (.of .deselect)
    exact ended
  · exact moved

lemma settled_commitPreview (slot : Slot) : Settled scope e (e.commitPreview slot) := by
  unfold commitPreview
  split
  · rename_i hp
    exact .settle (.of (.confirm hp))
  · exact .nil

/-! ## Leaving, completing, loading -/

lemma settled_save (index : Nat) (e : Editor) : Settled .saving e (e.save index).2 := by
  have h := save_cases index e
  generalize e.save index = saved at h
  cases h with
  | absent => exact .nil
  | refused _ focus _ => exact .of (.invalidate focus)
  | blank held _ focus _ _ => exact (Settled.of (.accept rfl)).snoc (.revert rfl focus held)
  | kept => exact (Settled.of (.accept rfl)).snoc .forget
  | @replaced current draft t held _ _ _ read _ =>
    have kind : current.kind.isSome → t.kind = current.kind := reading_kind_of_held read held
    exact ((Settled.of (.accept rfl)).snoc .forget).snoc (.replace rfl held kind)

lemma settled_enter {slot : Slot} (within : ∀ index, slot = .term index → index < e.terms.length) :
    Settled .saving e (e.enter slot) := by
  cases slot with
  | input => exact .of (.enterInput rfl)
  | term index =>
    have lt : index < e.terms.terms.length := within index rfl
    have held : e.terms.get? index = some e.terms.terms[index] := List.getElem?_eq_getElem lt
    have draft : ((Slot.term index).index?.bind e.terms.get?) = e.terms.get? index := rfl
    unfold enter
    rw [draft, held]
    exact .of (.enterTerm rfl held)

lemma settled_focused (slot : Slot) (e : Editor) : Settled .saving e (e.focused slot) := by
  unfold focused
  split
  · exact .nil
  · rename_i hslot
    have within : ∀ index, slot = .term index → index < e.terms.length := by
      rintro index rfl
      simpa [Slot.index?] using (not_or.mp hslot).2
    split
    · exact settled_enter within
    · rename_i left _
      -- A save keeps the number of terms, so the slot that is entered is still there after it.
      have saved := settled_save left e
      have length := save_length left e
      split
      · rename_i eq
        rw [eq] at saved length
        exact saved.andThen (settled_enter fun index h => length ▸ within index h)
      · rename_i eq
        rw [eq] at saved
        refine saved.andShow ?_
        intro effect h
        cases List.mem_singleton.mp h
        exact .focus _

lemma settled_writeSuggestion {slot : Slot} {data : Suggestion}
    (h : e.writeSuggestion? slot data = some c) : Settled .suggesting e c := by
  obtain ⟨e', written, rfl⟩ := Option.map_eq_some_iff.mp h
  cases slot with
  | input =>
    cases written
    exact .of (.suggestInput rfl)
  | term index =>
    dsimp only at written
    split at written
    · rename_i focus
      cases written
      exact .of (.suggestTerm rfl focus.1)
    · cases written

lemma settled_suggest (slot : Slot) (data : Suggestion) (e : Editor) :
    Settled .suggesting e (e.suggest slot data) := by
  unfold suggest
  split
  · exact .nil
  · rename_i written
    exact (settled_writeSuggestion written).andShow (shows_request _ _ _)

lemma settled_complete (slot : Slot) (data : Suggestion) (e : Editor) :
    Settled .suggesting e (e.complete slot data) := by
  unfold complete
  split
  · exact .nil
  · rename_i written
    have written := settled_writeSuggestion written
    split
    · exact .settle (written.trace.andThen (trace_exchange _))
    · exact written

lemma load_eq_ok {payload : Payload} (h : e.load payload = .ok c) :
    ∃ terms, payloadTerms payload = .ok terms ∧ checkTerms e.grammar terms = .ok () ∧
      c = ⟨e.restore terms,
        if isRendered payload then (e.restore terms).settledEffects
        else e.removalEffects ++ (e.restore terms).renderEffects ++
          (e.restore terms).settledEffects⟩ := by
  unfold load at h
  cases ht : payloadTerms payload with
  | error err => rw [ht] at h; cases h
  | ok terms =>
    rw [ht] at h
    cases hc : checkTerms e.grammar terms with
    | error err =>
      simp only [bind, Except.bind, hc] at h
      cases h
    | ok =>
      simp only [bind, Except.bind, hc] at h
      cases h
      exact ⟨terms, rfl, hc, rfl⟩

/-- The terms of a payload are restored where the grammar accepts them. -/
lemma load_of_accepted {payload : Payload} {terms : List Term}
    (named : payloadTerms payload = .ok terms) (accepted : checkTerms e.grammar terms = .ok ()) :
    ∃ c, e.load payload = .ok c ∧ c.editor = e.restore terms := by
  simp only [load, named, accepted, bind, Except.bind]
  exact ⟨_, rfl, rfl⟩

lemma settled_load (payload : Payload) (e : Editor) : Settled .loading e (e.loadOrIgnore payload) := by
  unfold loadOrIgnore
  split
  · rename_i loaded
    obtain ⟨terms, _, accepted, rfl⟩ := load_eq_ok loaded
    split
    · exact .of (.adopt rfl accepted)
    · exact .of (.reload (.inr rfl) accepted)
  · exact .nil

lemma settled_reset (e : Editor) : Settled scope e e.reset := by
  have accepted : checkTerms e.grammar [] = .ok () := by
    unfold checkTerms
    split <;> rfl
  have step : Step scope e true _ := .reload (.inl rfl) accepted
  have none : (e.restore []).renderEffects = [] := rfl
  rw [none, List.append_nil] at step
  exact .of step

/-- Nothing but the mark changes, and nothing else is shown. -/
lemma markRequired_eq (e : Editor) :
    ∃ required, e.markRequired.editor = { e with required } ∧
      ∀ effect ∈ e.markRequired.effects, effect = .setRequired required := by
  unfold markRequired
  split
  · exact ⟨!e.hasTerms, rfl, fun _ mem => List.mem_singleton.mp mem⟩
  · exact ⟨e.required, rfl, nofun⟩

lemma settled_markRequired (e : Editor) : Settled scope e e.markRequired := by
  unfold markRequired
  split
  · exact .of (.require _)
  · exact .nil

lemma settled_submit (e : Editor) : Settled scope e e.submit := by
  refine Settled.andShow ((Settled.settle (trace_exchange e)).andThen (settled_markRequired _)) ?_
  intro effect h
  cases List.mem_singleton.mp h
  exact .submit

lemma settled_toggle (index : Nat) (e : Editor) : Settled scope e (e.toggle index) := by
  unfold toggle
  split
  · exact .nil
  · rename_i lt
    have lt : index < e.terms.length := Nat.lt_of_not_le lt
    split
    · rename_i old
      exact .of (.unselect lt old)
    · rename_i new
      exact .of (.select lt new)

/-- A message that only edits, other than a refresh, is answered by steps that every scope allows. -/
lemma settled_editing {message : Message} (editing : message.scope = .editing)
    (kept : message ≠ .refresh) (e : Editor) : Settled scope e (e.respond message) := by
  cases message with
  | insertChar c => exact settled_insertChar c fun _ _ => rfl
  | insertText text => exact settled_insertText text e
  | deleteBackward => exact settled_deleteBackward e
  | deleteForward => exact settled_deleteForward e
  | moveCursor direction => exact settled_moveCursor direction
  | moveStart => exact settled_moveStart _
  | moveEnd => exact settled_moveEnd _
  | confirmPreview => exact settled_confirmPreview fun _ _ => rfl
  | commitPreview => exact settled_commitPreview _
  | cyclePreview direction => exact settled_cyclePreview direction e
  | exchange => exact .settle (trace_exchange e)
  | removeLast => exact .settle (trace_pop e)
  | remove index => exact .settle (trace_remove index e)
  | clearSelected => exact .settle (trace_clearSelected e)
  | selectAll => exact .of .selectAll
  | deselect => exact .of .deselect
  | toggle index => exact settled_toggle index e
  | forward => exact .of (.show (shows_focus e _))
  | backward => exact .of (.show (shows_focus e _))
  | refresh => exact (kept rfl).elim
  | reset => exact settled_reset e
  | submit => exact settled_submit e
  | _ => cases editing

/-- Every message is answered by steps that its scope allows. -/
lemma settled_respond (e : Editor) (message : Message) :
    Settled message.scope e (e.respond message) := by
  cases message with
  | save index => exact settled_save index e
  | focused slot => exact settled_focused slot e
  | suggestion slot data => exact settled_suggest slot data e
  | completion slot data => exact settled_complete slot data e
  | load payload => exact settled_load payload e
  | refresh => exact .of (.refresh rfl)
  | _ =>
    apply settled_editing
    · rfl
    · nofun

end Editor
end FilterEditor
