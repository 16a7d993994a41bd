import FilterEditor.Proofs.Settling

/-!
# Typing and pasting

A session that undergoes a change takes over the changed editor and carries out its effects. What is
carried out never looks at the editor, so changes of the editor and effects on the display may be
interleaved or not: two changes in a row come to the same at once as one after the other
(`undergo_andThen`). A text that is pasted is one change made of the changes for its characters, and a
text that is typed is these changes one by one.
-/

namespace FilterEditor.Session

/-- A session after a change of its editor. -/
def undergo (c : Change) (s : Session) : Session :=
  apply (Command.ofEffects c.effects) { s with editor := c.editor }

lemma undergo_eq (c : Change) (s : Session) :
    s.undergo c = c.effects.foldl accept { s with editor := c.editor } := by
  unfold undergo apply
  rw [Command.effects_ofEffects]

lemma undergo_editor (c : Change) (s : Session) : (s.undergo c).editor = c.editor :=
  apply_editor _ _

lemma undergo_destroyed (c : Change) (s : Session) : (s.undergo c).destroyed = s.destroyed :=
  apply_destroyed _ _

/-! ## Effects -/

/-- Carrying out an effect does not look at the editor. -/
lemma enact_edited (s : Session) (editor : Editor) (effect : Effect) :
    enact { s with editor } effect = { s.enact effect with editor } := by
  have atHandle : ∀ handle change,
      atHandle handle change { s with editor } = { s.atHandle handle change with editor } := by
    intro handle change
    cases handle <;> rfl
  have handle : ∀ slot, handle? { s with editor } slot = s.handle? slot := by
    intro slot
    cases slot <;> rfl
  cases effect with
  | renderTerm index t =>
    simp only [enact, renderTerm]
    split <;> rfl
  | removeSlot index =>
    simp only [enact, removeSlot]
    split <;> rfl
  | updateTerm => exact atHandle _ _
  | setSelected => exact atHandle _ _
  | writeValue => simp only [enact, handle, atHandle]
  | setValidity => simp only [enact, handle, atHandle]
  | reportValidity => simp only [enact, handle, atHandle]
  | focus => simp only [enact, handle, atHandle]
  | _ => rfl

lemma accept_edited (s : Session) (editor : Editor) (effect : Effect) :
    accept { s with editor } effect = { s.accept effect with editor } := by
  unfold accept
  split
  · rfl
  · exact enact_edited s editor effect

lemma foldl_accept_edited (s : Session) (editor : Editor) (effects : List Effect) :
    effects.foldl accept { s with editor } = { effects.foldl accept s with editor } := by
  induction effects generalizing s with
  | nil => rfl
  | cons effect rest ih =>
    rw [List.foldl_cons, accept_edited]
    exact ih _

/-! ## Changes -/

/-- The editor may go on before the effects of its first change are carried out. -/
lemma undergo_andThen (c : Change) (step : Editor → Change) (s : Session) :
    s.undergo (c.andThen step) = (s.undergo c).undergo (step c.editor) := by
  have whole : s.undergo (c.andThen step) =
      (c.effects ++ (step c.editor).effects).foldl accept
        { s with editor := (step c.editor).editor } := undergo_eq _ s
  have first := foldl_accept_edited s (step c.editor).editor c.effects
  have again := foldl_accept_edited s c.editor c.effects
  rw [whole, List.foldl_append, first, undergo_eq, undergo_eq, again]

/-- A message that loads nothing makes a session undergo what its editor answers. -/
lemma dispatch_eq_undergo {s : Session} {message : Message} (running : s.destroyed = false)
    (editing : message.scope ≠ .loading) :
    s.dispatch message = s.undergo (s.editor.respond message) :=
  dispatch_eq running editing

/-- Characters that are typed behind a change continue it. -/
lemma undergo_typed {s : Session} (running : s.destroyed = false) (text : Text) (c : Change) :
    s.undergo (text.foldl (fun c x => c.andThen fun e => e.insertChar e.focus x) c) =
      (s.undergo c).typeText text := by
  induction text generalizing c with
  | nil => rfl
  | cons x rest ih =>
    have editing : (Message.insertChar x).scope ≠ .loading := nofun
    have typed : (s.undergo c).dispatch (.insertChar x) =
        (s.undergo c).undergo (c.editor.insertChar c.editor.focus x) := by
      rw [dispatch_eq_undergo ((undergo_destroyed c s).trans running) editing, undergo_editor]
      rfl
    calc s.undergo ((x :: rest).foldl (fun c x => c.andThen fun e => e.insertChar e.focus x) c)
        = (s.undergo (c.andThen fun e => e.insertChar e.focus x)).typeText rest := ih _
      _ = ((s.undergo c).undergo (c.editor.insertChar c.editor.focus x)).typeText rest := by
          rw [undergo_andThen]
      _ = ((s.undergo c).dispatch (.insertChar x)).typeText rest := by rw [typed]
      _ = (s.undergo c).typeText (x :: rest) := rfl

/-- Pasting a text comes to the same as typing it, whatever the session: the same editor, the same
display, the same handles, and the same effects that wait, in the same order. -/
theorem paste_eq_typeText (s : Session) (text : Text) :
    s.dispatch (.insertText text) = s.typeText text := by
  cases running : s.destroyed with
  | false =>
    have editing : (Message.insertText text).scope ≠ .loading := nofun
    rw [dispatch_eq_undergo running editing]
    exact undergo_typed running text s.editor.unchanged
  | true =>
    have ignores : ∀ message, s.dispatch message = s := fun _ => if_pos running
    have typed : s.typeText text = s := by
      induction text with
      | nil => rfl
      | cons x rest ih => exact (congrArg (typeText rest) (ignores _)).trans ih
    rw [ignores, typed]

end FilterEditor.Session
