import FilterEditor.Proofs.Upkeep

/-!
# Texts in step

A slot shows the text that is edited in it: the draft in the slot in focus, the label elsewhere, and
the trailing input beside them. The display is told what was typed, and what is typed holds no line
breaks and is not trimmed, so the two come apart where the editor writes one text and keeps another: a
label with line breaks becomes a draft without them, and a draft with white space at its ends is saved
or left behind as a label without it.
-/

namespace FilterEditor

/-- A text that an editable line does not take as it is: it has line breaks. -/
def Line.Drops (text : Text) : Prop := (Line.ofText text).text ≠ text

lemma Line.not_drops_iff {text : Text} : ¬ Line.Drops text ↔ text = (Line.ofText text).text :=
  not_not.trans eq_comm

namespace Editor

/-- The texts that are edited in the term slots. -/
def texts (e : Editor) : List Text :=
  (List.range e.terms.length).map fun index => e.slotText (.term index)

/-- The labels of the terms. -/
def labels (e : Editor) : List Text := e.terms.terms.map (·.label)

/-- The text of the draft, if there is one. -/
def draftText (e : Editor) : Text := (e.draft.map (·.text)).getD []

/-- A guise with the texts of an editor. -/
structure Worded (g : Guise) (e : Editor) : Prop where
  terms : g.texts = e.texts
  input : g.input = e.input.text

/-- A draft that is no blank and has the label of its term, but for white space at its ends. -/
def Padded (e : Editor) (index : Nat) : Prop :=
  ∃ current draft, e.terms.get? index = some current ∧ e.draft = some draft ∧
    draft.trimmed ≠ [] ∧ draft.trimmed = current.label ∧ draft.trimmed ≠ draft.text

/-- A message after which the display shows another text than the editor keeps. -/
def Garbles (e : Editor) : Message → Prop
  | .suggestion .input data => Line.Drops data.toTerm.label
  | .completion .input data =>
    Line.Drops data.toTerm.label ∧ (Line.ofText data.toTerm.label).trimmed = []
  | .suggestion (.term index) data | .completion (.term index) data =>
    Line.Drops data.toTerm.label ∧ e.focus = .term index
  | .save index =>
    e.focus = .term index ∧ ¬ e.Stuck ∧
      ∃ current draft, e.terms.get? index = some current ∧ e.draft = some draft ∧
        (draft.trimmed = [] ∧ Line.Drops current.label ∨
          draft.trimmed ≠ [] ∧ draft.trimmed ≠ current.label ∧ draft.trimmed ≠ draft.text)
  | .focused slot =>
    ¬ e.Reached slot ∧ ¬ e.Stuck ∧
      ((∃ index, e.focus = .term index ∧ e.Padded index) ∨
        ∃ index label, slot = .term index ∧ e.labels[index]? = some label ∧ Line.Drops label)
  | _ => False

variable {scope : Scope} {e e' : Editor} {placed : Bool} {c : Change} {g g' : Guise} {index : Nat}

lemma labels_eq (e : Editor) :
    e.labels = (List.range e.terms.length).map fun index =>
      ((e.terms.get? index).map (·.label)).getD [] := by
  apply List.ext_getElem
  · rw [labels, List.length_map, List.length_map, List.length_range]
    rfl
  · intro i lt _
    have lt : i < e.terms.terms.length := by
      rw [labels, List.length_map] at lt
      exact lt
    have held : e.terms.get? i = some e.terms.terms[i] := List.getElem?_eq_getElem lt
    simp only [labels, List.getElem_map, List.getElem_range, held, Option.map_some, Option.getD_some]

lemma texts_eq (focus : e.FocusSound) : e.texts = e.focus.put e.draftText e.labels := by
  rw [labels_eq, Slot.put_range, texts]
  apply List.map_congr_left
  intro index _
  simp only [slotText]
  split
  · rename_i at_focus
    obtain ⟨draft, edited⟩ := Option.isSome_iff_exists.mp (focus.term index at_focus).2
    simp only [draftText, edited, Option.map_some, Option.getD_some]
  · rfl

lemma length_texts (e : Editor) : e.texts.length = e.terms.length := by
  rw [texts, List.length_map, List.length_range]

lemma texts_restore (terms : List Term) (e : Editor) :
    (e.restore terms).texts = terms.map (·.label) := by
  have focus : (e.restore terms).FocusSound := ⟨nofun, fun _ => ⟨rfl, rfl⟩⟩
  rw [texts_eq focus]
  rfl

/-! ## Steps -/

lemma texts_add (t : Term) (focus : e.FocusSound) (texts : g.texts = e.texts) :
    (g.replay (e.add t).effects).texts = (e.add t).editor.texts := by
  have behind : ¬ e.terms.length < g.texts.length := by
    rw [texts, length_texts]
    exact Nat.lt_irrefl _
  have appended : (g.replay (e.add t).effects).texts = g.texts ++ [t.label] := if_neg behind
  have labels : (e.add t).editor.labels = e.labels ++ [t.label] := List.map_append
  have same : (e.add t).editor.focus = e.focus ∧ (e.add t).editor.draftText = e.draftText :=
    ⟨rfl, rfl⟩
  rw [appended, texts, texts_eq focus, texts_eq (add_sound t focus), labels, same.1, same.2,
    Slot.put_append]
  intro index at_focus
  rw [Editor.labels, List.length_map]
  exact (focus.term index at_focus).1

lemma worded_add (t : Term) (focus : e.FocusSound) (h : Worded g e) :
    Worded (g.replay (e.add t).effects) (e.add t).editor :=
  ⟨texts_add t focus h.terms, h.input⟩

lemma worded_remove {t : Term} (held : e.terms.get? index = some t) (focus : e.FocusSound)
    (h : Worded g e) : Worded (g.replay (e.remove index).effects) (e.remove index).editor := by
  have removed := removed_remove held
  have lt : index < e.terms.length := lt_of_get? held
  have sound : (e.remove index).editor.FocusSound := by
    rw [remove_eq held]
    exact refocus_sound held focus
  have erased : (g.replay (e.remove index).effects).texts = g.texts.eraseIdx index := by
    rw [remove_eq held]
    rfl
  have beside : (g.replay (e.remove index).effects).input = g.input := by
    rw [remove_eq held]
    rfl
  have labels : (e.remove index).editor.labels = e.labels.eraseIdx index := by
    rw [Editor.labels, Editor.labels, removed.terms, List.eraseIdx_map]
  have kept : (e.remove index).editor.focus.put (e.remove index).editor.draftText
        (e.remove index).editor.labels =
      (e.remove index).editor.focus.put e.draftText (e.remove index).editor.labels := by
    rcases removed.kept with gone | ⟨kept, _⟩
    · rw [gone]
      rfl
    · rw [draftText, kept]
      rfl
  -- The draft goes along with its slot, or away with it.
  constructor
  · rw [erased, h.terms, texts_eq focus, texts_eq sound, kept, removed.focus, labels,
      Slot.eraseIdx_put]
  · rw [beside, h.input, removed.input]

lemma worded_reload (terms : List Term) (h : Worded g e) :
    Worded (g.replay (e.removalEffects ++ (e.restore terms).renderEffects ++
      (e.restore terms).settledEffects)) (e.restore terms) := by
  have length : g.texts.length = e.terms.length := by rw [h.terms, length_texts]
  constructor
  · rw [(g.replay_columns _).1, texts_restore]
    exact Column.replay_reload terms length
  · exact Guise.input_settled _ _ _

lemma worded_refresh (h : Worded g e) : Worded (g.replay e.refresh.effects) e.refresh.editor := by
  have length : g.texts.length ≤ e.terms.terms.length := by
    rw [h.terms, length_texts]
    exact Nat.le_refl _
  constructor
  · have cleared : e.refresh.editor.texts = e.terms.terms.map (·.label) := texts_restore _ e
    rw [(g.replay_columns _).1, cleared]
    exact Column.replay_rendered e.terms.terms length (.inr fun _ _ => rfl)
  · exact Guise.input_settled _ _ _

/-- Every step of plain editing tells the display of the texts that it changes. -/
lemma Step.worded (h : Step scope e placed c) (editing : scope = .editing) (he : e.WellFormed)
    (hg : Worded g e) : Worded (g.replay c.effects) c.editor := by
  have focus' := h.focusSound he.focus
  cases h with
  | add => exact worded_add _ he.focus hg
  | confirm => exact worded_add _ he.focus hg
  | clear => exact ⟨hg.terms, rfl⟩
  | remove held => exact worded_remove held he.focus hg
  | selectAll =>
    obtain ⟨_, eq⟩ := g.replay_marking (List.range e.terms.length) true
    rw [Editor.selectAll, eq]
    exact ⟨hg.terms, hg.input⟩
  | deselect =>
    obtain ⟨_, eq⟩ := g.replay_marking e.selected false
    rw [Editor.deselect, eq]
    exact ⟨hg.terms, hg.input⟩
  | @write slot _ _ _ edited focus =>
    obtain ⟨_, line, _, _, rfl⟩ := edit_eq edited
    cases slot with
    | input => exact ⟨hg.terms, rfl⟩
    | term index =>
      -- Only the slot in focus is written to, where the text of the draft stands already.
      have at_focus := focus index rfl
      refine ⟨?_, hg.input⟩
      have written : (g.replay ((e.withLine (.term index) line).writeEffects (.term index))).texts =
          g.texts.set index line.text := congrArg (g.texts.set index) (slotText_draft at_focus rfl)
      have same : (e.withLine (.term index) line).focus = e.focus := rfl
      rw [written, hg.terms, texts_eq he.focus, texts_eq focus', same, at_focus]
      exact List.set_set _
  | @move slot _ _ _ still edited =>
    obtain ⟨line, line', found, moved, rfl⟩ := edit_eq edited
    have same := still line line' moved
    cases slot with
    | input =>
      cases found
      exact ⟨hg.terms, hg.input.trans same.symm⟩
    | term index =>
      have found : e.draft = some line := found
      have kept : (e.withLine (.term index) line').draftText = e.draftText := by
        rw [draftText, draftText, found]
        exact same
      refine ⟨hg.terms.trans ?_, hg.input⟩
      rw [texts_eq he.focus, texts_eq focus', ← kept]
      rfl
  | reload => exact worded_reload _ hg
  | adopt loading => cases loading.symm.trans editing
  | refresh => exact worded_refresh hg
  | accept saving => cases saving.symm.trans editing
  | revert saving => cases saving.symm.trans editing
  | replace saving => cases saving.symm.trans editing
  | enterTerm saving => cases saving.symm.trans editing
  | enterInput saving => cases saving.symm.trans editing
  | suggestInput suggesting => cases suggesting.symm.trans editing
  | suggestTerm suggesting => cases suggesting.symm.trans editing
  | «show» shows =>
    rw [Guise.replay_shows shows]
    exact hg
  | _ => exact ⟨hg.terms, hg.input⟩

/-! ## Saving -/

lemma length_labels (e : Editor) : e.labels.length = e.terms.length := List.length_map _

lemma getElem?_labels (e : Editor) (index : Nat) :
    e.labels[index]? = (e.terms.get? index).map (·.label) :=
  List.getElem?_map ..

/-- An open slot, with its term and its draft. -/
structure Open (index : Nat) (e : Editor) (current : Term) (draft : Line) : Prop where
  sound : e.FocusSound
  focus : e.focus = .term index
  held : e.terms.get? index = some current
  edited : e.draft = some draft

lemma open_of_focus (sound : e.FocusSound) (focus : e.focus = .term index) :
    ∃ current draft, Open index e current draft := by
  obtain ⟨current, draft, held, edited⟩ := sound.opened focus
  exact ⟨current, draft, sound, focus, held, edited⟩

namespace Open

variable {current : Term} {draft : Line} {text : Text}

lemma label (o : Open index e current draft) : e.labels[index]? = some current.label := by
  rw [getElem?_labels, o.held]
  rfl

lemma within (o : Open index e current draft) : index < e.labels.length :=
  (List.getElem?_eq_some_iff.mp o.label).1

lemma draftText (o : Open index e current draft) : e.draftText = draft.text := by
  rw [Editor.draftText, o.edited]
  rfl

/-- An open slot shows its draft. -/
lemma shown (o : Open index e current draft) (h : Worded g e) :
    g.texts = (Slot.term index).put draft.text e.labels := by
  rw [h.terms, texts_eq o.sound, o.focus, o.draftText]

lemma padded_iff (o : Open index e current draft) :
    e.Padded index ↔
      draft.trimmed ≠ [] ∧ draft.trimmed = current.label ∧ draft.trimmed ≠ draft.text := by
  constructor
  · rintro ⟨current', draft', held, edited, padded⟩
    cases o.held.symm.trans held
    cases o.edited.symm.trans edited
    exact padded
  · exact fun padded => ⟨current, draft, o.held, o.edited, padded⟩

lemma garbles_iff (o : Open index e current draft) (free : ¬ e.Stuck) :
    e.Garbles (.save index) ↔
      (draft.trimmed = [] ∧ Line.Drops current.label ∨
        draft.trimmed ≠ [] ∧ draft.trimmed ≠ current.label ∧ draft.trimmed ≠ draft.text) := by
  constructor
  · rintro ⟨_, _, current', draft', held, edited, garbled⟩
    cases o.held.symm.trans held
    cases o.edited.symm.trans edited
    exact garbled
  · exact fun garbled => ⟨o.focus, free, current, draft, o.held, o.edited, garbled⟩

/-- A text that is read from the draft is the draft without white space at its ends. -/
lemma read {t : Term} (o : Open index e current draft) (read : e.reading (.term index) = some t) :
    draft.trimmed ≠ [] ∧ t.label = draft.trimmed := by
  have text := reading_text read
  rw [slotText_draft o.focus o.edited] at text
  exact text

end Open

/-- An open slot shows its draft just if the text there is that of the draft. -/
lemma worded_open_iff {text : Text} (sound : e'.FocusSound) (at_focus : e'.focus = .term index)
    (lt : index < e'.labels.length) (texts : g'.texts = (Slot.term index).put text e'.labels)
    (input : g'.input = e'.input.text) : Worded g' e' ↔ text = e'.draftText := by
  have terms : g'.texts = e'.texts ↔ text = e'.draftText := by
    rw [texts, texts_eq sound, at_focus, Slot.put_inj_iff lt]
  exact ⟨fun worded => terms.mp worded.terms, fun same => ⟨terms.mpr same, input⟩⟩

/-- What is written into an open slot replaces what it showed. -/
lemma texts_written {shown : Text} {items : List Text}
    (texts : g.texts = (Slot.term index).put shown items) (value : Text) :
    (g.after (.writeValue (.term index) value)).texts = (Slot.term index).put value items := by
  have set : (g.after (.writeValue (.term index) value)).texts = g.texts.set index value := rfl
  rw [set, texts]
  exact List.set_set _

/-- What a save makes of an open slot: the text that it shows then is the label of its term, or that of
its draft, just if the draft was not padded, or not garbled. -/
structure Resaved (index : Nat) (g : Guise) (e : Editor) (c : Change) (text : Text) : Prop where
  focus : c.editor.focus = .term index
  input : (g.replay c.effects).input = c.editor.input.text
  texts : (g.replay c.effects).texts = (Slot.term index).put text c.editor.labels
  within : index < c.editor.labels.length
  others : ∀ i ≠ index, c.editor.labels[i]? = e.labels[i]?
  closed_iff : c.editor.labels[index]? = some text ↔ ¬ e.Padded index
  opened_iff : text = c.editor.draftText ↔ ¬ e.Garbles (.save index)

section Resaving

variable {current t : Term} {draft : Line}

/-- A blank draft turns back into the label, and the slot shows the label. -/
lemma resaved_blank (o : Open index e current draft) (free : ¬ e.Stuck) (h : Worded g e)
    (blank : draft.trimmed = []) :
    Resaved index g e
      ⟨{ e with validity := none, draft := some (Line.ofText current.label) },
        [.writeValue (.term index) current.label]⟩ current.label := by
  refine ⟨o.focus, h.input, texts_written (o.shown h) _, o.within, fun _ _ => rfl, ?_, ?_⟩
  · exact iff_of_true o.label fun padded => (o.padded_iff.mp padded).1 blank
  · rw [o.garbles_iff free]
    simp only [blank, true_and, ne_eq, not_true, false_and, or_false]
    exact Line.not_drops_iff.symm

/-- A draft that is saved as the label of its term goes on being shown. -/
lemma resaved_kept (o : Open index e current draft) (free : ¬ e.Stuck) (h : Worded g e)
    (nonblank : draft.trimmed ≠ []) (same : draft.trimmed = current.label) :
    Resaved index g e ⟨{ e with validity := none, carried := none }, []⟩ draft.text := by
  refine ⟨o.focus, h.input, o.shown h, o.within, fun _ _ => rfl, ?_, ?_⟩
  · have shows : e.labels[index]? = some draft.text ↔ draft.trimmed = draft.text := by
      rw [o.label, ← same, Option.some.injEq]
    rw [o.padded_iff]
    exact shows.trans ⟨fun plain padded => padded.2.2 plain,
      fun plain => by_contra fun other => plain ⟨nonblank, same, other⟩⟩
  · rw [o.garbles_iff free]
    refine iff_of_true o.draftText.symm ?_
    rintro (⟨blank, _⟩ | ⟨_, other, _⟩)
    · exact nonblank blank
    · exact other same

/-- A draft that is saved as another label stays as it is, but the slot shows the label. -/
lemma resaved_replaced {terms : Sequence} {value : Text} (o : Open index e current draft)
    (free : ¬ e.Stuck) (h : Worded g e) (nonblank : draft.trimmed ≠ [])
    (trimmed : t.label = draft.trimmed) (other : draft.trimmed ≠ current.label)
    (replaced : terms.terms = e.terms.terms.set index t) :
    Resaved index g e
      ⟨{ e with validity := none, carried := none, terms },
        [.updateTerm index t, .syncValue value]⟩ t.label := by
  have labels : ({ e with validity := none, carried := none, terms } : Editor).labels =
      (Slot.term index).put t.label e.labels := by
    rw [Editor.labels, replaced]
    exact List.map_set
  have updated : (g.replay [.updateTerm index t, .syncValue value]).texts =
      g.texts.set index t.label := rfl
  refine ⟨o.focus, h.input, ?_, ?_, fun i ne => ?_, ?_, ?_⟩
  · rw [updated, o.shown h, labels]
    exact (List.set_set _).trans (List.set_set _).symm
  · rw [labels, Slot.length_put]
    exact o.within
  · rw [labels]
    exact Slot.getElem?_put_other fun eq => ne (Slot.term.inj eq).symm
  · rw [labels, Slot.getElem?_put_self o.within]
    exact iff_of_true rfl fun padded => other (o.padded_iff.mp padded).2.1
  · have drafted : t.label = e.draftText ↔ draft.trimmed = draft.text := by rw [o.draftText, trimmed]
    refine drafted.trans ?_
    rw [o.garbles_iff free]
    constructor
    · rintro same (⟨blank, _⟩ | ⟨_, _, untrimmed⟩)
      · exact nonblank blank
      · exact untrimmed same
    · exact fun calm => by_contra fun untrimmed => calm (.inr ⟨nonblank, other, untrimmed⟩)

lemma resaved_save (o : Open index e current draft) (free : ¬ e.Stuck) (h : Worded g e) :
    ∃ text, Resaved index g e (e.save index).2 text := by
  have accepted := (save_refused_iff o.focus).not.mpr free
  have saved := save_cases index e
  generalize e.save index = result at saved accepted
  cases saved with
  | absent absent => exact (not_absent o.held o.edited o.focus absent).elim
  | refused => exact (accepted rfl).elim
  | blank held edited _ _ blank =>
    cases o.held.symm.trans held
    cases o.edited.symm.trans edited
    exact ⟨_, resaved_blank o free h blank⟩
  | kept held _ _ _ read same =>
    cases o.held.symm.trans held
    obtain ⟨nonblank, trimmed⟩ := o.read read
    exact ⟨_, resaved_kept o free h nonblank (same.trans trimmed).symm⟩
  | replaced held _ _ _ read other =>
    cases o.held.symm.trans held
    obtain ⟨nonblank, trimmed⟩ := o.read read
    have other : draft.trimmed ≠ current.label := fun same => other (same.symm.trans trimmed.symm)
    exact ⟨_, resaved_replaced o free h nonblank trimmed other rfl⟩

end Resaving

lemma worded_save_iff (he : e.WellFormed) (h : Worded g e) (index : Nat) :
    Worded (g.replay (e.save index).2.effects) (e.save index).2.editor ↔
      ¬ e.Garbles (.save index) := by
  by_cases at_focus : e.focus = .term index
  · by_cases stuck : e.Stuck
    · obtain ⟨message, refused⟩ := save_of_refused ((save_refused_iff at_focus).mpr stuck)
      rw [refused]
      exact iff_of_true ⟨h.terms, h.input⟩ fun garbles => garbles.2.1 stuck
    · obtain ⟨_, _, opened⟩ := open_of_focus he.focus at_focus
      obtain ⟨text, saved⟩ := resaved_save opened stuck h
      have sound : (e.save index).2.editor.FocusSound := (he.run [.save index]).focus
      rw [← saved.opened_iff]
      exact worded_open_iff sound saved.focus saved.within saved.texts saved.input
  · rw [save_elsewhere at_focus]
    exact iff_of_true h fun garbles => at_focus garbles.1

/-! ## Entering -/

lemma draftText_enter {label : Text} (shown : e.labels[index]? = some label) :
    (e.enter (.term index)).editor.draftText = (Line.ofText label).text := by
  rw [getElem?_labels] at shown
  obtain ⟨t, held, rfl⟩ := Option.map_eq_some_iff.mp shown
  have drafted : (e.enter (.term index)).editor.draft = (e.terms.get? index).map fun t : Term =>
    Line.ofText t.label := rfl
  rw [draftText, drafted, held]
  rfl

/-- The draft of an entered slot is its label just if that has no line breaks. -/
lemma stands_iff {slot : Slot} (within : ∀ index, slot = .term index → index < e.labels.length) :
    (∀ index, slot = .term index → e.labels[index]? = some (e.enter slot).editor.draftText) ↔
      ¬ ∃ index label, slot = .term index ∧ e.labels[index]? = some label ∧ Line.Drops label := by
  constructor
  · rintro stands ⟨index, label, rfl, shown, drops⟩
    have same := stands index rfl
    rw [draftText_enter shown, shown] at same
    exact drops (Option.some.inj same).symm
  · rintro taken index rfl
    obtain ⟨label, shown⟩ : ∃ label, e.labels[index]? = some label :=
      ⟨_, List.getElem?_eq_getElem (within index rfl)⟩
    rw [draftText_enter shown, shown]
    exact congrArg some (Line.not_drops_iff.mp fun drops => taken ⟨index, label, rfl, shown, drops⟩)

/-- Entering a slot writes nothing. -/
lemma enter_texts (slot : Slot) (e : Editor) (g : Guise) :
    (e.enter slot).editor.labels = e.labels ∧ (e.enter slot).editor.input = e.input ∧
      (g.replay (e.enter slot).effects).texts = g.texts ∧
        (g.replay (e.enter slot).effects).input = g.input := by
  cases slot <;> exact ⟨rfl, rfl, rfl, rfl⟩

/-- Entering a slot is right just if the text that is shown where the focus was and the draft that is
opened put the same labels on display. -/
lemma worded_enter_iff {left slot : Slot} {text : Text} (sound : (e.enter slot).editor.FocusSound)
    (input : g.input = e.input.text) (texts : g.texts = left.put text e.labels) :
    Worded (g.replay (e.enter slot).effects) (e.enter slot).editor ↔
      left.put text e.labels = slot.put (e.enter slot).editor.draftText e.labels := by
  obtain ⟨labels, kept, texts', input'⟩ := enter_texts slot e g
  have terms : (g.replay (e.enter slot).effects).texts = (e.enter slot).editor.texts ↔
      left.put text e.labels = slot.put (e.enter slot).editor.draftText e.labels := by
    rw [texts_eq sound, texts', texts, labels, (enter_focus slot e).1]
  refine ⟨fun worded => terms.mp worded.terms, fun same => ⟨terms.mpr same, ?_⟩⟩
  rw [input', input, kept]

/-- What entering a slot leaves on display, once the slot in focus shows a text. -/
lemma worded_entered_iff {slot : Slot} {text : Text} (he : e.WellFormed)
    (eq : e.focused slot = c.andThen (enter slot)) (away : ¬ e.Reached slot) (free : ¬ e.Stuck)
    (input : (g.replay c.effects).input = c.editor.input.text)
    (texts : (g.replay c.effects).texts = e.focus.put text c.editor.labels)
    (length : c.editor.labels.length = e.labels.length)
    (others : ∀ index, e.focus ≠ .term index → c.editor.labels[index]? = e.labels[index]?)
    (closed : (∀ index, e.focus = .term index → c.editor.labels[index]? = some text) ↔
      ¬ ∃ index, e.focus = .term index ∧ e.Padded index) :
    Worded (g.replay (e.focused slot).effects) (e.focused slot).editor ↔
      ¬ e.Garbles (.focused slot) := by
  have editor : (e.focused slot).editor = (c.editor.enter slot).editor := by
    rw [eq]
    rfl
  have sound : (c.editor.enter slot).editor.FocusSound := editor ▸ (he.run [.focused slot]).focus
  have ne : e.focus ≠ slot := fun same => away (.inl same.symm)
  have within : ∀ index, e.focus = .term index → index < c.editor.labels.length := by
    intro index at_focus
    rw [length, length_labels]
    exact (he.focus.term index at_focus).1
  have within' : ∀ index, slot = .term index → index < c.editor.labels.length := by
    rintro index rfl
    rw [length, length_labels]
    exact Nat.lt_of_not_le fun past => away (.inr (by simpa [Slot.index?] using past))
  -- The slot that is entered held the same label before.
  have same : (∃ index label, slot = .term index ∧ c.editor.labels[index]? = some label ∧
        Line.Drops label) ↔
      ∃ index label, slot = .term index ∧ e.labels[index]? = some label ∧ Line.Drops label := by
    refine exists_congr fun index => exists_congr fun label => and_congr_right ?_
    rintro rfl
    rw [others index ne]
  rw [editor, eq, Guise.replay_andThen, worded_enter_iff sound input texts,
    Slot.put_eq_put_iff ne within within', closed, stands_iff within', same, ← not_or]
  exact not_congr ⟨fun garbled => ⟨away, free, garbled⟩, fun garbles => garbles.2.2⟩

lemma worded_focused_iff (he : e.WellFormed) (h : Worded g e) (slot : Slot) :
    Worded (g.replay (e.focused slot).effects) (e.focused slot).editor ↔
      ¬ e.Garbles (.focused slot) := by
  by_cases reached : e.Reached slot
  · have still : e.focused slot = e.unchanged := if_pos reached
    rw [still]
    exact iff_of_true h fun garbles => garbles.1 reached
  rcases focused_away reached with ⟨at_focus, eq⟩ | ⟨left, at_focus, ⟨free, eq⟩ | ⟨stuck, eq⟩⟩
  · have free : ¬ e.Stuck := fun stuck => stuck.focus_ne at_focus
    have texts : g.texts = e.focus.put [] e.labels := by
      rw [h.terms, texts_eq he.focus, at_focus]
      rfl
    have closed : (∀ index, e.focus = .term index → e.labels[index]? = some []) ↔
        ¬ ∃ index, e.focus = .term index ∧ e.Padded index := by
      rw [at_focus]
      exact iff_of_true nofun nofun
    exact worded_entered_iff (c := e.unchanged) he eq reached free h.input texts rfl
      (fun _ _ => rfl) closed
  · obtain ⟨_, _, opened⟩ := open_of_focus he.focus at_focus
    obtain ⟨text, saved⟩ := resaved_save opened free h
    have texts := saved.texts
    rw [← at_focus] at texts
    refine worded_entered_iff he eq reached free saved.input texts ?_ ?_ ?_
    · rw [length_labels, length_labels, save_length]
    · exact fun index other => saved.others index fun same => other (same ▸ at_focus)
    · rw [at_focus]
      constructor
      · rintro closed ⟨_, ⟨⟩, padded⟩
        exact saved.closed_iff.mp (closed left rfl) padded
      · rintro plain _ ⟨⟩
        exact saved.closed_iff.mpr fun padded => plain ⟨left, rfl, padded⟩
  · obtain ⟨message, refused⟩ := save_of_refused ((save_refused_iff at_focus).mpr stuck)
    rw [eq, refused]
    exact iff_of_true ⟨h.terms, h.input⟩ fun garbles => garbles.2.1 stuck

/-! ## Suggestions -/

/-- A suggestion is garbled if it is written into a slot, with its line breaks. -/
lemma garbles_suggestion_iff (focus : e.FocusSound) (slot : Slot) (data : Suggestion) :
    e.Garbles (.suggestion slot data) ↔
      Line.Drops data.toTerm.label ∧ (e.writeSuggestion? slot data).isSome := by
  cases slot with
  | input => exact (and_iff_left rfl).symm
  | term index =>
    refine and_congr_right fun _ => ?_
    unfold writeSuggestion?
    by_cases at_focus : e.focus = .term index
    · have edited := (focus.term index at_focus).2
      simp [at_focus, edited]
    · simp [at_focus]

/-- What is written is kept just if it has no line breaks. -/
lemma worded_written_iff {slot : Slot} {data : Suggestion} (focus : e.FocusSound) (h : Worded g e)
    (written : e.writeSuggestion? slot data = some c) :
    Worded (g.replay c.effects) c.editor ↔ ¬ Line.Drops data.toTerm.label := by
  rw [Line.not_drops_iff]
  obtain ⟨e', wrote, rfl⟩ := Option.map_eq_some_iff.mp written
  cases slot with
  | input =>
    obtain rfl := Option.some.inj wrote
    exact ⟨fun worded => worded.input, fun same => ⟨h.terms, same⟩⟩
  | term index =>
    dsimp only at wrote
    split at wrote
    · rename_i at_focus
      obtain rfl := Option.some.inj wrote
      obtain ⟨_, _, opened⟩ := open_of_focus focus at_focus.1
      refine worded_open_iff ⟨fun i focused => ⟨(focus.term i focused).1, rfl⟩, fun input => ?_⟩
        at_focus.1 opened.within (texts_written (opened.shown h) _) h.input
      cases at_focus.1.symm.trans input
    · cases wrote

/-- Committing the trailing input leaves it empty, whatever it showed. -/
lemma worded_exchange (t : Term) (focus : e.FocusSound) (texts : g.texts = e.texts) :
    Worded (g.replay (.notify .resetCompletion :: (e.add t).effects ++ [.writeValue .input []]))
      { (e.add t).editor with input := {} } :=
  ⟨texts_add t focus texts, rfl⟩

lemma worded_suggest_iff (focus : e.FocusSound) (h : Worded g e) (slot : Slot) (data : Suggestion) :
    Worded (g.replay (e.suggest slot data).effects) (e.suggest slot data).editor ↔
      ¬ e.Garbles (.suggestion slot data) := by
  rw [garbles_suggestion_iff focus]
  cases written : e.writeSuggestion? slot data with
  | none =>
    have suggested : e.suggest slot data = e.unchanged := by rw [suggest, written]
    rw [suggested]
    exact iff_of_true h fun garbles => nomatch garbles.2
  | some c =>
    have suggested : e.suggest slot data =
        c.andShow fun e => e.requestEffects slot (e.slotText slot) := by
      rw [suggest, written]
    rw [suggested, Guise.replay_andShow, Option.isSome_some, and_iff_left rfl]
    · exact worded_written_iff focus h written
    · exact shows_request _ _ _

/-- A chosen suggestion is garbled like one that is highlighted, unless the trailing input is committed
right away. -/
lemma worded_complete_iff (focus : e.FocusSound) (h : Worded g e) (slot : Slot) (data : Suggestion) :
    Worded (g.replay (e.complete slot data).effects) (e.complete slot data).editor ↔
      ¬ e.Garbles (.completion slot data) := by
  cases slot with
  | term index =>
    have garbles_iff : e.Garbles (.completion (.term index) data) ↔ _ :=
      garbles_suggestion_iff focus (.term index) data
    rw [garbles_iff]
    cases written : e.writeSuggestion? (.term index) data with
    | none =>
      have completed : e.complete (.term index) data = e.unchanged := by rw [complete, written]
      rw [completed]
      exact iff_of_true h fun garbles => nomatch garbles.2
    | some c =>
      have completed : e.complete (.term index) data = c := by
        rw [complete, written]
        rfl
      rw [completed, Option.isSome_some, and_iff_left rfl]
      exact worded_written_iff focus h written
  | input =>
    obtain ⟨c, written, line, sound, texts⟩ : ∃ c, e.writeSuggestion? .input data = some c ∧
        c.editor.input = Line.ofText data.toTerm.label ∧ c.editor.FocusSound ∧
          (g.replay c.effects).texts = c.editor.texts :=
      ⟨_, rfl, rfl, ⟨focus.term, focus.input⟩, h.terms⟩
    have completed : e.complete .input data = (c.andThen exchange).andShow placeholderEffects := by
      rw [complete, written]
      rfl
    have effects : g.replay (e.complete .input data).effects =
        (g.replay c.effects).replay c.editor.exchange.effects := by
      rw [completed, Guise.replay_andShow (shows_placeholder _), Guise.replay_andThen]
    have editor : (e.complete .input data).editor = c.editor.exchange.editor := by
      rw [completed]
      rfl
    have garbles_iff : e.Garbles (.completion .input data) ↔
        Line.Drops data.toTerm.label ∧ c.editor.input.trimmed = [] := by
      rw [line]
      rfl
    rw [effects, editor, garbles_iff]
    have exchanged := exchange_cases c.editor
    generalize c.editor.exchange = result at exchanged
    cases exchanged with
    | blank blank =>
      have blank : c.editor.input.trimmed = [] := blank
      have kept := worded_written_iff focus h written
      rw [and_iff_left blank]
      exact kept
    | @added t read =>
      have sound : { c.editor with carried := none }.FocusSound := ⟨sound.term, sound.input⟩
      exact iff_of_true (worded_exchange t sound texts) fun garbles => (reading_text read).1 garbles.2

/-- A message that takes over no slots keeps the texts right, apart from one that garbles a text. -/
lemma worded_respond_iff {message : Message} (he : e.WellFormed) (plain : message.isPlain)
    (h : Worded g e) :
    Worded (g.replay (e.respond message).effects) (e.respond message).editor ↔
      ¬ e.Garbles message := by
  have edits : message.scope = .editing →
      Worded (g.replay (e.respond message).effects) (e.respond message).editor :=
    fun editing => (settled_respond e message).trace.guise
      (fun _ _ _ _ he step hg => step.worded editing he hg) he h
  cases message with
  | save index => exact worded_save_iff he h index
  | focused slot => exact worded_focused_iff he h slot
  | suggestion slot data => exact worded_suggest_iff he.focus h slot data
  | completion slot data => exact worded_complete_iff he.focus h slot data
  | load payload =>
    have reload := fun terms => worded_reload terms h
    exact iff_of_true (Session.respond_load_guise plain reload h) id
  | _ => exact iff_of_true (edits rfl) id

end Editor

namespace Session

/-- The trailing input and the term slots show what is edited in them. -/
structure ShowsTexts (s : Session) : Prop where
  terms : s.display.slots.map (·.value) = s.editor.texts
  input : s.display.inputValue = s.editor.input.text

lemma relates_worded_iff {s : Session} : s.Relates Editor.Worded ↔ s.ShowsTexts :=
  ⟨fun h => ⟨h.terms, h.input⟩, fun h => ⟨h.terms, h.input⟩⟩

/-- Whatever happens to a session on a display that showed nothing before, every slot shows the text
that is edited in it, as long as no message garbles one. -/
theorem texts_in_step_iff {e : Editor} {d : Display} (keymap : Keymap) (actions : List Action)
    (reachable : e.Reachable) (blank : d.Blank) (plain : ∀ action ∈ actions, action.isPlain) :
    let s := start e d keymap
    s.ShowsTexts ∧
      ((∀ delivery ∈ s.history actions, delivery.after.ShowsTexts) ∧
          (actions.foldl act s).ShowsTexts ↔
        ∀ delivery ∈ s.history actions, ¬ delivery.session.editor.Garbles delivery.message) := by
  have initial : Editor.Worded (.fresh e.terms.terms d.inputValidity)
      (e.restore e.terms.terms) := ⟨(Editor.texts_restore _ _).symm, rfl⟩
  have related := relates_history_iff Editor.Garbles keymap actions
    (fun _ _ _ => Editor.worded_respond_iff) initial reachable blank plain
  simp only [relates_worded_iff] at related
  exact related

/-- A slot is opened and typed into, and shows its draft. -/
theorem texts_in_step_typed :
    let s := [Action.dispatch .backward, .turn, .dispatch (.insertChar 'x')].foldl act
      (start columnAndOperator {} {})
    s.editor.draft.isSome ∧ s.display.slots.map (·.value) = [['a'], ['=', 'x']] ∧ s.ShowsTexts := by
  have calm := (texts_in_step_iff {} [.dispatch .backward, .turn, .dispatch (.insertChar 'x')]
    reachable_columnAndOperator blank_empty (by decide)).2.mpr
  have opened : ∃ s, ((start columnAndOperator {} {}).act (.dispatch .backward)).turnDeliveries =
      [⟨s, .focused (.term 1)⟩] ∧ s.editor.focus = .input ∧ s.editor.labels = [['a'], ['=']] :=
    ⟨_, rfl, rfl, rfl⟩
  obtain ⟨s, opened, input, labels⟩ := opened
  refine ⟨by decide, by decide, (calm ?_).2⟩
  simp only [history, deliveries, opened, List.cons_append, List.nil_append, List.forall_mem_cons]
  refine ⟨id, ?_, id, List.forall_mem_nil _⟩
  rintro ⟨_, _, ⟨_, left, _⟩ | ⟨_, label, ⟨⟩, shown, drops⟩⟩
  · cases input.symm.trans left
  · rw [labels] at shown
    cases shown
    exact drops rfl

/-- A slot is left with white space behind its text, and goes on showing it. -/
theorem texts_out_of_step :
    let s := [Action.dispatch .forward, .turn, .dispatch (.insertChar ' '), .dispatch .forward,
      .turn].foldl act (start columnAndOperator {} {})
    s.editor.texts = [['a'], ['=']] ∧ s.display.slots.map (·.value) = [['a', ' '], ['=']] ∧
      ¬ s.ShowsTexts := by
  refine ⟨by decide, by decide, fun shows => ?_⟩
  have same := shows.terms
  revert same
  decide

end Session
end FilterEditor
