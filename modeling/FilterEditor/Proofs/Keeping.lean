import FilterEditor.Proofs.Navigation
import FilterEditor.Proofs.WellFormed

/-!
# What editing keeps

Most messages leave two things to others: the mark that the input is required, which only a submission
sets, and the focus, which moves when the display says so or when terms are restored. All that
happens to the focus otherwise is that it goes along with its slot while terms before it are removed,
and back to the trailing input once its own term is.

No message does both, remove slots and ask for the focus to move: `keeps_respond` says of every `isEdit`
that it asks for no move, and `motion_respond` says of every `isMotion` that it leaves the slots where
they are.
-/

namespace FilterEditor

/-- Whether an effect asks for the focus to move. -/
def Effect.isMove : Effect → Bool
  | .focus _ => true
  | _ => false

/-- A slot after an effect: a removal takes it away or moves it up. -/
def Slot.after (slot : Slot) : Effect → Option Slot
  | .removeSlot index =>
    match slot with
    | .input => some .input
    | .term focused =>
      if focused = index then none else some (.term (Editor.shiftIndex index focused))
  | _ => some slot

/-- A slot, if there is one, after effects, one after the other. -/
def Slot.follow (slot : Option Slot) (effects : List Effect) : Option Slot :=
  effects.foldl (fun slot effect => slot.bind (·.after effect)) slot

/-- Messages that move about: along a line, from slot to slot or through the previews. -/
def Message.isMotion : Message → Bool
  | .moveCursor _ | .moveStart | .moveEnd | .cyclePreview _ | .forward | .backward => true
  | _ => false

/-- Messages that neither move about nor restore terms nor submit them nor report the focus of the
display. -/
def Message.isEdit : Message → Bool
  | .load _ | .refresh | .reset | .submit | .focused _ => false
  | message => !message.isMotion

namespace Slot

variable {slot : Option Slot} {effects : List Effect}

lemma follow_cons (slot : Option Slot) (effect : Effect) (rest : List Effect) :
    follow slot (effect :: rest) = follow (slot.bind (·.after effect)) rest :=
  rfl

lemma follow_append (slot : Option Slot) (first rest : List Effect) :
    follow slot (first ++ rest) = follow (follow slot first) rest :=
  List.foldl_append

lemma follow_none (effects : List Effect) : follow none effects = none := by
  induction effects with
  | nil => rfl
  | cons _ _ ih => exact ih

/-- Effects that remove no slot move none. -/
lemma follow_still (still : ∀ effect ∈ effects, ∀ slot : Slot, slot.after effect = some slot) :
    follow slot effects = slot := by
  induction effects with
  | nil => rfl
  | cons effect rest ih =>
    have first : slot.bind (·.after effect) = slot := by
      cases slot with
      | none => rfl
      | some slot => exact still effect List.mem_cons_self slot
    rw [follow_cons, first]
    exact ih fun effect mem => still effect (List.mem_cons_of_mem _ mem)

/-- The trailing input is never removed. -/
lemma follow_input (effects : List Effect) : follow (some .input) effects = some .input := by
  induction effects with
  | nil => rfl
  | cons effect rest ih =>
    have first : Slot.input.after effect = some .input := by cases effect <;> rfl
    rw [follow_cons, Option.bind_some, first]
    exact ih

/-- Once a slot is removed, the trailing input takes its place for good. -/
lemma follow_getD (slot : Option Slot) (effects : List Effect) :
    (follow (some (slot.getD .input)) effects).getD .input = (follow slot effects).getD .input := by
  cases slot with
  | some slot => rfl
  | none =>
    rw [follow_none]
    exact congrArg (·.getD .input) (follow_input effects)

end Slot

namespace Editor

/-- A change in which the focus goes along with its slot and is not asked to move. -/
structure Escorts (e : Editor) (c : Change) : Prop where
  focus : c.editor.focus = (Slot.follow (some e.focus) c.effects).getD .input
  unmoved : c.effects.any (·.isMove) = false

/-- A change that escorts the focus and leaves the mark as it is. -/
structure Keeps (e : Editor) (c : Change) : Prop where
  required : c.editor.required = e.required
  escorts : e.Escorts c

/-- A change in which the focus, the mark and the slots stay where they are. -/
structure Motion (e : Editor) (c : Change) : Prop where
  required : c.editor.required = e.required
  focus : c.editor.focus = e.focus
  still : ∀ effect ∈ c.effects, effect.changesSlots = false

variable {e e' : Editor} {c : Change} {slot : Slot} {message : Message} {step : Editor → Change}

lemma after_still {effect : Effect} (still : effect.changesSlots = false) (slot : Slot) :
    slot.after effect = some slot := by
  cases effect <;> first | rfl | cases still

namespace Escorts

lemma andThen (h : e.Escorts c) (h' : c.editor.Escorts (step c.editor)) :
    e.Escorts (c.andThen step) := by
  have effects : (c.andThen step).effects = c.effects ++ (step c.editor).effects := rfl
  constructor
  · have focus : (c.andThen step).editor.focus =
        (Slot.follow (some c.editor.focus) (step c.editor).effects).getD .input := h'.focus
    rw [focus, h.focus, Slot.follow_getD, effects, Slot.follow_append]
  · rw [effects, List.any_append, h.unmoved, h'.unmoved]
    rfl

lemma andShow {effects : Editor → List Effect} (h : e.Escorts c)
    (h' : c.editor.Escorts ⟨c.editor, effects c.editor⟩) : e.Escorts (c.andShow effects) := by
  have shown : e.Escorts (c.andThen fun e => ⟨e, effects e⟩) := h.andThen h'
  exact shown

end Escorts

namespace Keeps

lemma andThen (h : e.Keeps c) (h' : c.editor.Keeps (step c.editor)) : e.Keeps (c.andThen step) :=
  ⟨h'.required.trans h.required, h.escorts.andThen h'.escorts⟩

lemma andShow {effects : Editor → List Effect} (h : e.Keeps c)
    (h' : c.editor.Keeps ⟨c.editor, effects c.editor⟩) : e.Keeps (c.andShow effects) :=
  ⟨h'.required.trans h.required, h.escorts.andShow h'.escorts⟩

lemma unchanged (e : Editor) : e.Keeps e.unchanged := ⟨rfl, rfl, rfl⟩

lemma placeholder (e : Editor) : e.Keeps ⟨e, e.placeholderEffects⟩ := ⟨rfl, rfl, rfl⟩

lemma request (e : Editor) (slot : Slot) (label : Text) :
    e.Keeps ⟨e, e.requestEffects slot label⟩ := by
  unfold requestEffects
  split <;> exact ⟨rfl, rfl, rfl⟩

/-- Effects that only mark slots as selected or not. -/
lemma selecting (indices selected : List Nat) (mark : Bool) :
    e.Keeps ⟨{ e with selected }, indices.map fun index => .setSelected index mark⟩ := by
  refine ⟨rfl, ?_, ?_⟩
  · rw [Slot.follow_still]
    · rfl
    · intro effect mem slot
      obtain ⟨_, _, rfl⟩ := List.mem_map.mp mem
      rfl
  · rw [List.any_map]
    exact List.any_eq_false.mpr fun _ _ => Bool.false_ne_true

end Keeps

namespace Motion

lemma unchanged (e : Editor) : e.Motion e.unchanged := ⟨rfl, rfl, nofun⟩

lemma andThen (h : e.Motion c) (h' : c.editor.Motion (step c.editor)) : e.Motion (c.andThen step) := by
  refine ⟨h'.required.trans h.required, h'.focus.trans h.focus, fun effect mem => ?_⟩
  rcases List.mem_append.mp mem with mem | mem
  · exact h.still effect mem
  · exact h'.still effect mem

lemma follows (h : e.Motion c) :
    c.editor.focus = (Slot.follow (some e.focus) c.effects).getD .input := by
  rw [h.focus, Slot.follow_still fun effect mem => after_still (h.still effect mem)]
  rfl

lemma deselect (e : Editor) : e.Motion e.deselect := by
  refine ⟨rfl, rfl, fun effect mem => ?_⟩
  obtain ⟨_, _, rfl⟩ := List.mem_map.mp mem
  rfl

end Motion

/-! ## Committing and removing -/

lemma keeps_exchange (e : Editor) : e.Keeps e.exchange := by
  have h := exchange_cases e
  generalize e.exchange = c at h
  cases h <;> exact ⟨rfl, rfl, rfl⟩

/-- The focus goes along with its slot, or to the trailing input with the term that goes. -/
lemma focus_refocus (removed : Nat) (e : Editor) :
    (e.refocus removed).focus = (e.focus.after (.removeSlot removed)).getD .input := by
  unfold refocus
  cases focus : e.focus with
  | input => exact focus
  | term index =>
    dsimp only [Slot.after]
    split <;> rfl

lemma keeps_remove (index : Nat) (e : Editor) : e.Keeps (e.remove index) := by
  cases held : e.terms.get? index with
  | none =>
    have none : e.terms.terms[index]? = none := held
    simp only [remove, Sequence.remove?, none]
    exact .unchanged e
  | some t =>
    rw [remove_eq held]
    refine ⟨?_, ?_, rfl⟩
    · obtain ⟨_, _, _, eq⟩ := refocus_eq index (e.without index)
      rw [eq]
      rfl
    · have followed : ∀ value label, Slot.follow (some e.focus)
          [.removeSlot index, .syncValue value, .showPreview label] =
            e.focus.after (.removeSlot index) := by
        intro value label
        rw [Slot.follow_cons, Option.bind_some]
        cases e.focus.after (.removeSlot index) <;> rfl
      exact (focus_refocus index (e.without index)).trans
        (congrArg (·.getD .input) (followed _ _)).symm

lemma keeps_clearSelected (e : Editor) : e.Keeps e.clearSelected := by
  have key : ∀ (indices : List Nat) (c : Change), e.Keeps c →
      e.Keeps (indices.foldl (fun c index => c.andThen (remove index)) c) := by
    intro indices
    induction indices with
    | nil => exact fun _ h => h
    | cons index rest ih => exact fun c h => ih _ (h.andThen (keeps_remove index _))
  unfold clearSelected
  split
  · exact key _ _ (.unchanged e)
  · exact .unchanged e

lemma keeps_pop (e : Editor) : e.Keeps e.pop := by
  unfold pop
  split
  · exact (keeps_remove _ e).andShow ⟨rfl, rfl, rfl⟩
  · exact .unchanged e

/-! ## Typing -/

lemma keeps_edit {change : Line → Option Line} (edited : e.edit? slot change = some e') :
    e.Keeps ⟨e', e'.writeEffects slot⟩ := by
  obtain ⟨_, _, _, _, rfl⟩ := edit_eq edited
  cases slot <;> exact ⟨rfl, rfl, rfl⟩

lemma keeps_afterInput (e : Editor) : e.Keeps e.afterInput := by
  have finish : ∀ c : Change, e.Keeps c →
      e.Keeps (((c.andShow fun e => e.requestEffects .input e.input.text).andThen
        clearSelected).andShow placeholderEffects) := by
    intro c h
    exact ((h.andShow (.request _ _ _)).andThen (keeps_clearSelected _)).andShow (.placeholder _)
  unfold afterInput
  split
  · exact finish _ (.unchanged e)
  · dsimp only
    split
    · exact finish _ (.unchanged e)
    · split
      · exact .unchanged e
      · apply finish
        refine Keeps.andShow ?_ (.placeholder _)
        split
        · exact ⟨rfl, rfl, rfl⟩
        · exact keeps_exchange e

lemma keeps_afterEdit (slot : Slot) (e : Editor) : e.Keeps (e.afterEdit slot) := by
  cases slot with
  | input => exact keeps_afterInput e
  | term index =>
    unfold afterEdit afterTermEdit
    dsimp only
    split
    · exact ⟨rfl, rfl, rfl⟩
    · have marked : e.Keeps
          ⟨{ e with validity := none }, [.setValidity (.term index) none]⟩ := ⟨rfl, rfl, rfl⟩
      exact marked.andShow (.request _ _ _)

lemma keeps_editSlot (slot : Slot) (change : Line → Option Line) (e : Editor) :
    e.Keeps (e.editSlot slot change) := by
  unfold editSlot
  split
  · exact .unchanged e
  · rename_i edited
    exact (keeps_edit edited).andThen (keeps_afterEdit slot _)

lemma keeps_confirmPreview (slot : Slot) (e : Editor) : e.Keeps (e.confirmPreview slot) := by
  unfold confirmPreview
  split
  · refine Keeps.andShow ?_ (.request _ _ _)
    split <;> exact ⟨rfl, rfl, rfl⟩
  · exact keeps_editSlot slot _ e

lemma keeps_insertChar (slot : Slot) (c : Char) (e : Editor) : e.Keeps (e.insertChar slot c) := by
  unfold insertChar
  split
  · exact keeps_confirmPreview slot e
  · split
    · exact keeps_editSlot slot _ e
    · dsimp only
      split
      · exact ((keeps_exchange e).andShow (.placeholder _)).andThen (keeps_editSlot slot _ _)
      · split
        · exact keeps_editSlot slot _ e
        · refine Keeps.andShow (Keeps.andThen ?_ ⟨rfl, rfl, rfl⟩) (.placeholder _)
          split
          · exact keeps_exchange e
          · exact ⟨rfl, rfl, rfl⟩

lemma keeps_insertText (text : Text) (e : Editor) : e.Keeps (e.insertText text) := by
  have key : ∀ (text : Text) (c : Change), e.Keeps c →
      e.Keeps (text.foldl (fun change c => change.andThen fun e => e.insertChar e.focus c) c) := by
    intro text
    induction text with
    | nil => exact fun _ h => h
    | cons x rest ih => exact fun c h => ih _ (h.andThen (keeps_insertChar _ x _))
  exact key text _ (.unchanged e)

lemma keeps_deleteBackward (slot : Slot) (e : Editor) : e.Keeps (e.deleteBackward slot) := by
  unfold deleteBackward
  split
  · refine Keeps.andShow ((keeps_clearSelected e).andThen ?_) (.placeholder _)
    split
    · exact keeps_pop _
    · exact keeps_editSlot slot _ _
  · exact keeps_editSlot slot _ e

lemma keeps_deleteForward (slot : Slot) (e : Editor) : e.Keeps (e.deleteForward slot) := by
  have deleted : e.Keeps (e.editSlot slot Line.deleteForward?) := keeps_editSlot slot _ e
  unfold deleteForward
  dsimp only
  split
  · exact (deleted.andThen (keeps_clearSelected _)).andShow (.placeholder _)
  · exact deleted

lemma keeps_commitPreview (slot : Slot) (e : Editor) : e.Keeps (e.commitPreview slot) := by
  unfold commitPreview
  split <;> exact ⟨rfl, rfl, rfl⟩

/-! ## Saving and completing -/

lemma keeps_save (index : Nat) (e : Editor) : e.Keeps (e.save index).2 := by
  have h := save_cases index e
  generalize e.save index = saved at h
  cases h <;> exact ⟨rfl, rfl, rfl⟩

lemma keeps_writeSuggestion {data : Suggestion} (written : e.writeSuggestion? slot data = some c) :
    e.Keeps c := by
  obtain ⟨e', edited, rfl⟩ := Option.map_eq_some_iff.mp written
  cases slot with
  | input =>
    cases edited
    exact ⟨rfl, rfl, rfl⟩
  | term index =>
    dsimp only at edited
    split at edited
    · cases edited
      exact ⟨rfl, rfl, rfl⟩
    · cases edited

lemma keeps_suggest (slot : Slot) (data : Suggestion) (e : Editor) :
    e.Keeps (e.suggest slot data) := by
  unfold suggest
  split
  · exact .unchanged e
  · rename_i written
    exact (keeps_writeSuggestion written).andShow (.request _ _ _)

lemma keeps_complete (slot : Slot) (data : Suggestion) (e : Editor) :
    e.Keeps (e.complete slot data) := by
  unfold complete
  split
  · exact .unchanged e
  · rename_i written
    have written := keeps_writeSuggestion written
    split
    · exact (written.andThen (keeps_exchange _)).andShow (.placeholder _)
    · exact written

lemma keeps_toggle (index : Nat) (e : Editor) : e.Keeps (e.toggle index) := by
  unfold toggle
  split
  · exact .unchanged e
  · split <;> exact ⟨rfl, rfl, rfl⟩

/-! ## Moving about -/

lemma motion_cyclePreview (direction : Direction) (e : Editor) :
    e.Motion (e.cyclePreview direction) := by
  unfold cyclePreview
  dsimp only
  split
  · exact .unchanged e
  · refine ⟨rfl, rfl, fun effect mem => ?_⟩
    cases List.mem_singleton.mp mem
    rfl

lemma motion_moveInSlot (slot : Slot) (change : Line → Option Line) (e : Editor) :
    e.Motion (e.moveInSlot slot change).unchanged := by
  unfold moveInSlot
  cases edited : e.edit? slot change with
  | none => exact .unchanged e
  | some e' =>
    have kept := keeps_edit edited
    exact ⟨kept.required, edit_focus edited, nofun⟩

lemma motion_request (slot : Option Slot) (e : Editor) : e.Motion ⟨e, focusEffects slot⟩ := by
  refine ⟨rfl, rfl, fun effect mem => ?_⟩
  obtain ⟨_, _, rfl⟩ := List.mem_map.mp mem
  rfl

lemma motion_moveSideways (slot : Slot) (atEdge : Line → Bool) (move : Line → Option Line)
    (target : Editor → Option Slot) (e : Editor) :
    e.Motion (e.moveSideways slot atEdge move target) := by
  have moved : e.Motion (if (e.line? slot).any atEdge && e.hasTerms then ⟨e, focusEffects (target e)⟩
      else (e.moveInSlot slot move).unchanged) := by
    split
    · exact motion_request _ e
    · exact motion_moveInSlot slot move e
  unfold moveSideways
  dsimp only
  split
  · exact moved.andThen (.deselect _)
  · exact moved

lemma motion_moveCursor (slot : Slot) (direction : Direction) (e : Editor) :
    e.Motion (e.moveCursor slot direction) := by
  cases direction with
  | up => exact motion_cyclePreview .up e
  | down => exact motion_cyclePreview .down e
  | left => exact motion_moveSideways slot _ _ _ e
  | right => exact motion_moveSideways slot _ _ _ e

lemma motion_moveEnd (slot : Slot) (e : Editor) : e.Motion (e.moveEnd slot) := by
  have moved := motion_moveInSlot slot (fun line => some line.moveEnd) e
  unfold moveEnd
  dsimp only
  split
  · have ended : e.Motion ((e.moveInSlot slot fun line => some line.moveEnd).unchanged.andThen
        Editor.deselect) := moved.andThen (.deselect _)
    exact ended
  · exact moved

/-! ## Messages -/

/-- An edit keeps the mark, and the focus goes along with its slot. -/
lemma keeps_respond (edit : message.isEdit) (e : Editor) : e.Keeps (e.respond message) := by
  cases message with
  | insertChar c => exact keeps_insertChar _ c e
  | insertText text => exact keeps_insertText text e
  | deleteBackward => exact keeps_deleteBackward _ e
  | deleteForward => exact keeps_deleteForward _ e
  | confirmPreview => exact keeps_confirmPreview _ e
  | commitPreview => exact keeps_commitPreview _ e
  | exchange => exact (keeps_exchange e).andShow (.placeholder _)
  | removeLast => exact (keeps_pop e).andShow (.placeholder _)
  | remove index => exact (keeps_remove index e).andShow (.placeholder _)
  | clearSelected => exact (keeps_clearSelected e).andShow (.placeholder _)
  | save index => exact keeps_save index e
  | selectAll => exact .selecting _ _ _
  | deselect => exact .selecting _ _ _
  | toggle index => exact keeps_toggle index e
  | suggestion slot data => exact keeps_suggest slot data e
  | completion slot data => exact keeps_complete slot data e
  | _ => cases edit

/-- Moving about keeps the mark, the focus and the slots. -/
lemma motion_respond (motion : message.isMotion) (e : Editor) : e.Motion (e.respond message) := by
  cases message with
  | moveCursor direction => exact motion_moveCursor _ direction e
  | moveStart => exact motion_moveInSlot _ _ e
  | moveEnd => exact motion_moveEnd _ e
  | cyclePreview direction => exact motion_cyclePreview direction e
  | forward => exact motion_request _ e
  | backward => exact motion_request _ e
  | _ => cases motion

/-- A submission moves the focus no more than an edit does. -/
lemma escorts_submit (e : Editor) : e.Escorts e.submit := by
  have marked : e.exchange.editor.Escorts e.exchange.editor.markRequired := by
    unfold markRequired
    split <;> exact ⟨rfl, rfl⟩
  have exchanged := (keeps_exchange e).andShow (.placeholder _)
  exact Escorts.andShow (exchanged.escorts.andThen marked) ⟨rfl, rfl⟩

/-- Taking over the focus keeps the mark. -/
lemma required_focused (slot : Slot) (e : Editor) :
    (e.focused slot).editor.required = e.required := by
  have enter : ∀ e : Editor, (e.enter slot).editor.required = e.required := by
    intro e
    cases slot <;> rfl
  unfold focused
  split
  · rfl
  · split
    · exact enter e
    · rename_i left _
      have saved := (keeps_save left e).required
      split
      · rename_i eq
        rw [eq] at saved
        exact (enter _).trans saved
      · rename_i eq
        rw [eq] at saved
        exact saved

end Editor
end FilterEditor
