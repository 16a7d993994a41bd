import FilterEditor.Proofs.Upkeep

/-!
# Validation messages in step

The slot in focus shows the validation message of the editor, and no other slot shows any: edits say
what they find, and a message goes away with its slot. But a draft can become valid without an edit,
when a suggestion takes its place or the text in front of it changes, and where it is then saved, left
or dropped the editor clears its message and the display is told nothing.
-/

namespace FilterEditor

namespace Editor

/-- What is said about a slot. -/
def remark (slot : Slot) (e : Editor) : Option Text := if e.focus = slot then e.validity else none

/-- What is said about the term slots. -/
def remarks (e : Editor) : List (Option Text) :=
  (List.range e.terms.length).map fun index => e.remark (.term index)

/-- A guise with the messages of an editor. -/
structure Remarked (g : Guise) (e : Editor) : Prop where
  terms : g.messages = e.remarks
  input : g.inputMessage = e.remark .input

/-- A message that drops a validation message without a word to the display. -/
def Hushes (e : Editor) : Message → Prop
  | .refresh => e.validity ≠ none
  | .save index => e.validity ≠ none ∧ e.focus = .term index ∧ ¬ e.Stuck
  | .focused slot => e.validity ≠ none ∧ ¬ e.Reached slot ∧ ¬ e.Stuck
  | _ => False

variable {scope : Scope} {e e' : Editor} {placed : Bool} {c : Change} {g g' : Guise} {index : Nat}

lemma Hushes.loud {message : Message} (h : e.Hushes message) : e.validity ≠ none := by
  cases message with
  | refresh => exact h
  | save => exact h.1
  | focused => exact h.1
  | _ => cases h

lemma remarks_eq (e : Editor) :
    e.remarks = e.focus.put e.validity (List.replicate e.terms.length none) := by
  have blank : List.replicate e.terms.length none =
      (List.range e.terms.length).map fun _ => (none : Option Text) := by
    rw [List.map_const', List.length_range]
  rw [blank, Slot.put_range]
  rfl

lemma length_remarks (e : Editor) : e.remarks.length = e.terms.length := by
  rw [remarks, List.length_map, List.length_range]

lemma remarks_restore (terms : List Term) (e : Editor) :
    (e.restore terms).remarks = terms.map fun _ => none := by
  rw [remarks_eq, List.map_const']
  rfl

lemma remark_input (focus : e.FocusSound) : e.remark .input = none := by
  unfold remark
  split
  · rename_i input
    exact (focus.input input).2
  · rfl

/-- Nothing is said just if no slot shows anything. -/
lemma remarks_eq_replicate_iff (focus : e.FocusSound) :
    e.remarks = List.replicate e.terms.length none ↔ e.validity = none := by
  rw [remarks_eq]
  cases at_focus : e.focus with
  | input => exact iff_of_true rfl (focus.input at_focus).2
  | term k =>
    have within := (focus.term k at_focus).1
    rw [Slot.put_term]
    constructor
    · intro silent
      have shown : ((List.replicate e.terms.length none).set k e.validity)[k]? = some e.validity :=
        List.getElem?_set_self (by rw [List.length_replicate]; exact within)
      rw [silent, List.getElem?_replicate, if_pos within] at shown
      exact (Option.some.inj shown).symm
    · intro silent
      rw [silent, List.set_replicate_self]

/-! ## Steps -/

lemma remarked_add (t : Term) (focus : e.FocusSound) (h : Remarked g e) :
    Remarked (g.replay (e.add t).effects) (e.add t).editor := by
  have behind : ¬ e.terms.length < g.messages.length := by
    rw [h.terms, length_remarks]
    exact Nat.lt_irrefl _
  have appended : (g.replay (e.add t).effects).messages = g.messages ++ [none] := if_neg behind
  have grown : (e.add t).editor.terms.length = e.terms.length + 1 := List.length_append
  have same : (e.add t).editor.focus = e.focus ∧ (e.add t).editor.validity = e.validity := ⟨rfl, rfl⟩
  refine ⟨?_, h.input⟩
  rw [appended, h.terms, remarks_eq, remarks_eq, grown, same.1, same.2, List.replicate_succ',
    Slot.put_append]
  intro index at_focus
  rw [List.length_replicate]
  exact (focus.term index at_focus).1

lemma remarked_remove {t : Term} (held : e.terms.get? index = some t) (focus : e.FocusSound)
    (h : Remarked g e) : Remarked (g.replay (e.remove index).effects) (e.remove index).editor := by
  have removed := removed_remove held
  have lt : index < e.terms.length := lt_of_get? held
  have sound : (e.remove index).editor.FocusSound := by
    rw [remove_eq held]
    exact refocus_sound held focus
  have erased : (g.replay (e.remove index).effects).messages = g.messages.eraseIdx index := by
    rw [remove_eq held]
    rfl
  have beside : (g.replay (e.remove index).effects).inputMessage = g.inputMessage := by
    rw [remove_eq held]
    rfl
  have kept : ∀ items : List (Option Text),
      (e.remove index).editor.focus.put (e.remove index).editor.validity items =
        (e.remove index).editor.focus.put e.validity items := by
    intro items
    rcases removed.kept with gone | ⟨_, kept⟩
    · rw [gone]
      rfl
    · rw [kept]
  -- The message goes along with its slot, or away with it.
  constructor
  · rw [erased, h.terms, remarks_eq, remarks_eq, kept, removed.focus, removed.length lt,
      Slot.eraseIdx_put, List.eraseIdx_replicate, if_pos lt]
  · rw [beside, h.input, remark_input focus, remark_input sound]

lemma remarked_reload (terms : List Term) (focus : e.FocusSound) (h : Remarked g e) :
    Remarked (g.replay (e.removalEffects ++ (e.restore terms).renderEffects ++
      (e.restore terms).settledEffects)) (e.restore terms) := by
  have length : g.messages.length = e.terms.length := by rw [h.terms, length_remarks]
  constructor
  · rw [(g.replay_columns _).2.2, remarks_restore]
    exact Column.replay_reload terms length
  · have unmarked : ∀ message, .setValidity .input message ∉
        e.removalEffects ++ (e.restore terms).renderEffects ++ (e.restore terms).settledEffects := by
      intro message mem
      rw [List.append_assoc] at mem
      rcases List.mem_append.mp mem with mem | mem
      · obtain ⟨_, _, eq⟩ := List.mem_map.mp mem
        cases eq
      · exact Guise.unmarked_restored _ _ mem
    rw [Guise.inputMessage_replay unmarked, h.input]
    exact remark_input focus

/-- The slot in focus shows what is said about it. -/
lemma remarked_set (at_focus : e.focus = .term index) (validity : Option Text) (h : Remarked g e) :
    Remarked (g.after (.setValidity (.term index) validity)) { e with validity } := by
  have set : (g.after (.setValidity (.term index) validity)).messages =
      g.messages.set index validity := rfl
  constructor
  · rw [set, h.terms, remarks_eq, remarks_eq, at_focus]
    exact List.set_set _
  · refine h.input.trans ?_
    unfold remark
    rw [at_focus]
    rfl

/-- Every step that neither saves a draft nor renders slots again tells the display of the messages
that it changes. -/
lemma Step.remarked (h : Step scope e placed c) (other : scope = .suggesting) (he : e.WellFormed)
    (hg : Remarked g e) : Remarked (g.replay c.effects) c.editor := by
  cases h with
  | add => exact remarked_add _ he.focus hg
  | confirm => exact remarked_add _ he.focus hg
  | remove held => exact remarked_remove held he.focus hg
  | selectAll =>
    obtain ⟨_, eq⟩ := g.replay_marking (List.range e.terms.length) true
    rw [Editor.selectAll, eq]
    exact ⟨hg.terms, hg.input⟩
  | deselect =>
    obtain ⟨_, eq⟩ := g.replay_marking e.selected false
    rw [Editor.deselect, eq]
    exact ⟨hg.terms, hg.input⟩
  | @write slot _ _ _ edited =>
    obtain ⟨_, _, _, _, rfl⟩ := edit_eq edited
    cases slot <;> exact ⟨hg.terms, hg.input⟩
  | @move slot _ _ _ _ edited =>
    obtain ⟨_, _, _, _, rfl⟩ := edit_eq edited
    cases slot <;> exact ⟨hg.terms, hg.input⟩
  | validate focus => exact remarked_set focus none hg
  | invalidate focus => exact remarked_set focus (some _) hg
  | reload => exact remarked_reload _ he.focus hg
  | adopt loading => cases loading.symm.trans other
  | refresh editing => cases editing.symm.trans other
  | accept saving => cases saving.symm.trans other
  | revert saving => cases saving.symm.trans other
  | replace saving => cases saving.symm.trans other
  | enterTerm saving => cases saving.symm.trans other
  | enterInput saving => cases saving.symm.trans other
  | «show» shows =>
    rw [Guise.replay_shows shows]
    exact hg
  | _ => exact ⟨hg.terms, hg.input⟩

/-! ## Messages -/

/-- Where the editor drops its message and the slots stay as they are, they are right just if there was
none. -/
lemma remarked_hushed_iff (focus : e.FocusSound) (focus' : e'.FocusSound) (h : Remarked g e)
    (terms : g'.messages = g.messages) (input : g'.inputMessage = g.inputMessage)
    (length : e'.terms.length = e.terms.length) (silent : e'.validity = none) :
    Remarked g' e' ↔ e.validity = none := by
  have none' : e'.remarks = List.replicate e.terms.length none := by
    rw [← length]
    exact (remarks_eq_replicate_iff focus').mpr silent
  rw [← remarks_eq_replicate_iff focus]
  constructor
  · intro shown
    rw [← h.terms, ← terms, shown.terms, none']
  · intro none
    constructor
    · rw [terms, h.terms, none, none']
    · rw [input, h.input, remark_input focus, remark_input focus']

/-- A slot that may be left loses its message, and the display is not told. -/
lemma silent_save (focus : e.FocusSound) (at_focus : e.focus = .term index) (free : ¬ e.Stuck) :
    (e.save index).2.editor.validity = none := by
  obtain ⟨_, _, held, edited⟩ := focus.opened at_focus
  have accepted := (save_refused_iff at_focus).not.mpr free
  have h := save_cases index e
  generalize e.save index = saved at h accepted
  cases h with
  | absent absent => exact (not_absent held edited at_focus absent).elim
  | refused => exact (accepted rfl).elim
  | _ => rfl

lemma messages_save (at_focus : e.focus = .term index) (free : ¬ e.Stuck) (g : Guise) :
    (g.replay (e.save index).2.effects).messages = g.messages ∧
      (g.replay (e.save index).2.effects).inputMessage = g.inputMessage := by
  have accepted := (save_refused_iff at_focus).not.mpr free
  have h := save_cases index e
  generalize e.save index = saved at h accepted
  cases h with
  | refused => exact (accepted rfl).elim
  | _ => exact ⟨rfl, rfl⟩

/-- A draft that is refused shows why. -/
lemma remarked_refused (at_focus : e.focus = .term index) (stuck : e.Stuck) (h : Remarked g e) :
    Remarked (g.replay (e.save index).2.effects) (e.save index).2.editor := by
  obtain ⟨message, eq⟩ := save_of_refused ((save_refused_iff at_focus).mpr stuck)
  have marked := remarked_set at_focus (some message) h
  rw [← at_focus] at marked
  rw [eq]
  exact marked

lemma remarked_save_iff (he : e.WellFormed) (h : Remarked g e) (index : Nat) :
    Remarked (g.replay (e.save index).2.effects) (e.save index).2.editor ↔
      ¬ e.Hushes (.save index) := by
  by_cases at_focus : e.focus = .term index
  · by_cases stuck : e.Stuck
    · exact iff_of_true (remarked_refused at_focus stuck h) fun hushes => hushes.2.2 stuck
    · have sound : (e.save index).2.editor.FocusSound := (he.run [.save index]).focus
      obtain ⟨terms, input⟩ := messages_save at_focus stuck g
      rw [remarked_hushed_iff he.focus sound h terms input (save_length index e)
        (silent_save he.focus at_focus stuck)]
      exact ⟨fun none hushes => hushes.1 none,
        fun calm => not_not.mp fun some => calm ⟨some, at_focus, stuck⟩⟩
  · rw [save_elsewhere at_focus]
    exact iff_of_true h fun hushes => at_focus hushes.2.1

/-- Entering a slot takes no message off the display. -/
lemma enter_silent (slot : Slot) (e : Editor) (g : Guise) :
    (e.enter slot).editor.validity = none ∧ (e.enter slot).editor.terms = e.terms ∧
      (g.replay (e.enter slot).effects).messages = g.messages ∧
        (g.replay (e.enter slot).effects).inputMessage = g.inputMessage := by
  cases slot <;> exact ⟨rfl, rfl, rfl, rfl⟩

lemma remarked_focused_iff (he : e.WellFormed) (h : Remarked g e) (slot : Slot) :
    Remarked (g.replay (e.focused slot).effects) (e.focused slot).editor ↔
      ¬ e.Hushes (.focused slot) := by
  by_cases reached : e.Reached slot
  · have still : e.focused slot = e.unchanged := if_pos reached
    rw [still]
    exact iff_of_true h fun hushes => hushes.2.1 reached
  have sound : (e.focused slot).editor.FocusSound := (he.run [.focused slot]).focus
  -- Whether or not a draft was saved before, the message is gone once the slot is entered.
  have entered : ∀ {c : Change}, e.focused slot = c.andThen (enter slot) → ¬ e.Stuck →
      (g.replay c.effects).messages = g.messages → (g.replay c.effects).inputMessage = g.inputMessage →
        c.editor.terms.length = e.terms.length →
          (Remarked (g.replay (e.focused slot).effects) (e.focused slot).editor ↔
            ¬ e.Hushes (.focused slot)) := by
    intro c eq free terms input length
    obtain ⟨silent, kept, terms', input'⟩ := enter_silent slot c.editor (g.replay c.effects)
    have effects : g.replay (e.focused slot).effects =
        (g.replay c.effects).replay (c.editor.enter slot).effects := by
      rw [eq, Guise.replay_andThen]
    have editor : (e.focused slot).editor = (c.editor.enter slot).editor := by
      rw [eq]
      rfl
    have hushed : Remarked (g.replay (e.focused slot).effects) (e.focused slot).editor ↔
        e.validity = none := by
      refine remarked_hushed_iff he.focus sound h ?_ ?_ ?_ ?_
      · rw [effects, terms', terms]
      · rw [effects, input', input]
      · rw [editor, kept, length]
      · rw [editor, silent]
    rw [hushed]
    exact ⟨fun none hushes => hushes.1 none,
      fun calm => not_not.mp fun some => calm ⟨some, reached, free⟩⟩
  rcases focused_away reached with ⟨at_focus, eq⟩ | ⟨left, at_focus, ⟨free, eq⟩ | ⟨stuck, eq⟩⟩
  · exact entered (c := e.unchanged) eq (fun stuck => stuck.focus_ne at_focus) rfl rfl rfl
  · obtain ⟨terms, input⟩ := messages_save at_focus free g
    exact entered eq free terms input (save_length left e)
  · rw [eq, Guise.replay_andShow]
    · exact iff_of_true (remarked_refused at_focus stuck h) fun hushes => hushes.2.2 stuck
    · exact shows_focus _ (some _)

lemma remarked_refresh_iff (he : e.WellFormed) (h : Remarked g e) :
    Remarked (g.replay e.refresh.effects) e.refresh.editor ↔ ¬ e.Hushes .refresh := by
  have length : g.messages.length = e.terms.length := by rw [h.terms, length_remarks]
  have sound : e.refresh.editor.FocusSound := (he.run [.refresh]).focus
  have still : (g.replay e.refresh.effects).messages = g.messages := by
    rw [(g.replay_columns _).2.2, Column.replay_rerendered length fun _ _ => rfl]
  rw [remarked_hushed_iff he.focus sound h still
    (Guise.inputMessage_replay (Guise.unmarked_restored _)) rfl rfl]
  exact not_not.symm

/-- A message that takes over no slots keeps what slots say right, apart from one that drops a
validation message. -/
lemma remarked_respond_iff {message : Message} (he : e.WellFormed) (plain : message.isPlain)
    (h : Remarked g e) :
    Remarked (g.replay (e.respond message).effects) (e.respond message).editor ↔
      ¬ e.Hushes message := by
  -- Suggesting neither saves nor renders again, and plain editing is part of it apart from a refresh.
  have steps : Trace .suggesting e (e.respond message) →
      Remarked (g.replay (e.respond message).effects) (e.respond message).editor :=
    fun trace => trace.guise (fun _ _ _ _ he step hg => step.remarked rfl he hg) he h
  cases message with
  | refresh => exact remarked_refresh_iff he h
  | save index => exact remarked_save_iff he h index
  | focused slot => exact remarked_focused_iff he h slot
  | suggestion slot data => exact iff_of_true (steps (settled_suggest slot data e).trace) id
  | completion slot data => exact iff_of_true (steps (settled_complete slot data e).trace) id
  | load payload =>
    have reload := fun terms => remarked_reload terms he.focus h
    exact iff_of_true (Session.respond_load_guise plain reload h) id
  | _ =>
    refine iff_of_true (steps (Settled.trace ?_)) id
    apply settled_editing
    · rfl
    · nofun

end Editor

namespace Session

/-- The slot in focus shows the validation message, and no other slot shows any. -/
structure ShowsRemarks (s : Session) : Prop where
  terms : s.display.slots.map (·.validity) = s.editor.remarks
  input : s.display.inputValidity = s.editor.remark .input

lemma relates_remarked_iff {s : Session} : s.Relates Editor.Remarked ↔ s.ShowsRemarks :=
  ⟨fun h => ⟨h.terms, h.input⟩, fun h => ⟨h.terms, h.input⟩⟩

/-- Whatever happens to a session on a display that showed nothing before, the slot in focus shows the
validation message of the editor and no other slot shows any, as long as no message drops what is
shown. -/
theorem remarks_in_step_iff {e : Editor} {d : Display} (keymap : Keymap) (actions : List Action)
    (reachable : e.Reachable) (blank : d.Blank) (silent : d.inputValidity = none)
    (plain : ∀ action ∈ actions, action.isPlain) :
    let s := start e d keymap
    s.ShowsRemarks ∧
      ((∀ delivery ∈ s.history actions, delivery.after.ShowsRemarks) ∧
          (actions.foldl act s).ShowsRemarks ↔
        ∀ delivery ∈ s.history actions, ¬ delivery.session.editor.Hushes delivery.message) := by
  have initial : Editor.Remarked (.fresh e.terms.terms d.inputValidity)
      (e.restore e.terms.terms) := ⟨(Editor.remarks_restore _ _).symm, silent⟩
  have related := relates_history_iff Editor.Hushes keymap actions
    (fun _ _ _ => Editor.remarked_respond_iff) initial reachable blank plain
  simp only [relates_remarked_iff] at related
  exact related

/-- A slot is opened and spoilt, and shows so. -/
theorem remarks_in_step_spoilt :
    let s := [Action.dispatch .backward, .turn, .dispatch (.insertChar 'x')].foldl act
      (start columnAndOperator {} {})
    s.editor.validity.isSome ∧ s.display.slots.map (·.validity.isSome) = [false, true] ∧
      s.ShowsRemarks := by
  have calm := (remarks_in_step_iff {} [.dispatch .backward, .turn, .dispatch (.insertChar 'x')]
    reachable_columnAndOperator blank_empty rfl (by decide)).2.mpr
  have silent : ∀ delivery ∈ (start columnAndOperator {} {}).history
      [.dispatch .backward, .turn, .dispatch (.insertChar 'x')],
        delivery.session.editor.validity = none := by decide
  exact ⟨by decide, by decide, (calm fun delivery mem hushes => hushes.loud (silent delivery mem)).2⟩

/-- A suggestion makes a spoilt draft valid, and the slot is left with the message. -/
theorem remarks_left_behind :
    let s := [Action.dispatch .backward, .turn, .dispatch (.insertChar 'x'),
      .dispatch (.suggestion (.term 1) (.plain ['='])), .dispatch .forward, .turn].foldl act
        (start columnAndOperator {} {})
    s.editor.validity = none ∧ s.editor.focus = .input ∧
      s.display.slots.map (·.validity.isSome) = [false, true] ∧ ¬ s.ShowsRemarks := by
  refine ⟨by decide, by decide, by decide, fun shows => ?_⟩
  have silent := congrArg (List.map Option.isSome) shows.terms
  revert silent
  decide

end Session
end FilterEditor
