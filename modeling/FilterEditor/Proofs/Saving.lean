import FilterEditor.Proofs.Genuine

/-!
# The ends of a save

The draft of a term slot is saved on demand, and when the display takes the focus to another slot.
Either way it ends in exactly one of three ways: the draft is refused and nothing but its message
changes, the terms stay because the draft says nothing new, or the draft becomes the label of its term
and of no other. Only a refused draft keeps the focus.
-/

namespace FilterEditor.Editor

variable {e e' : Editor} {index : Nat} {message : Message}

/-- What becomes of a draft that is saved. -/
inductive Ending
  | refused
  | kept
  | reworded

/-- A term under a new label. It keeps its kind, and its tag unless a carried suggestion of that label
has one. What is searched for is the label, or what that suggestion searches for. -/
structure Rewords (text : Text) (e : Editor) (current t : Term) : Prop where
  label : t.label = text
  kind : current.kind.isSome → t.kind = current.kind
  tag : t.tag = ((e.suggested text).bind (·.tag)).or current.tag
  search : t.search = (e.grammar.prepare
    { t with search := ((e.suggested text).map (·.search)).getD text }).search

/-- What each end of a save says about the draft, and about the editor behind it. -/
inductive Ends (index : Nat) (e e' : Editor) : Ending → Prop
  /-- The draft is invalid. It gets a message, and nothing else changes. -/
  | refused {draft : Line} {message : Text} (edited : e.draft = some draft)
      (check : e.check (.term index) draft.text = .invalid message)
      (marked : e' = { e with validity := some message }) : Ends index e e' .refused
  /-- The draft is valid and says nothing new. -/
  | kept {current : Term} {draft : Line} (held : e.terms.get? index = some current)
      (edited : e.draft = some draft) (check : e.check (.term index) draft.text = .valid)
      (same : draft.trimmed = [] ∨ draft.trimmed = current.label)
      (terms : e'.terms = e.terms) : Ends index e e' .kept
  /-- The draft is valid and becomes the label of the term. -/
  | reworded {current t : Term} {draft : Line} (held : e.terms.get? index = some current)
      (edited : e.draft = some draft) (check : e.check (.term index) draft.text = .valid)
      (nonblank : draft.trimmed ≠ []) (other : draft.trimmed ≠ current.label)
      (rewords : Rewords draft.trimmed e current t)
      (terms : e'.terms = e.terms.withTerms (e.terms.terms.set index t)) :
      Ends index e e' .reworded

/-- A message that saves the draft of a term slot: it asks for that, or takes the focus elsewhere. -/
def Saves (index : Nat) (e : Editor) (message : Message) : Prop :=
  message = .save index ∨ ∃ slot, message = .focused slot ∧ e.Leaves slot index

/-- The draft decides how a save ends. -/
lemma Ends.unique {a b : Ending} (h : Ends index e e' a) (h' : Ends index e e' b) : a = b := by
  cases h with
  | refused edited invalid =>
    cases h' with
    | refused => rfl
    | kept _ edited' valid | reworded _ edited' valid =>
      cases edited.symm.trans edited'
      cases invalid.symm.trans valid
  | kept held edited valid same =>
    cases h' with
    | refused edited' invalid =>
      cases edited.symm.trans edited'
      cases valid.symm.trans invalid
    | kept => rfl
    | reworded held' edited' _ nonblank other =>
      cases held.symm.trans held'
      cases edited.symm.trans edited'
      exact (same.elim nonblank other).elim
  | reworded held edited valid nonblank other =>
    cases h' with
    | refused edited' invalid =>
      cases edited.symm.trans edited'
      cases valid.symm.trans invalid
    | kept held' edited' _ same =>
      cases held.symm.trans held'
      cases edited.symm.trans edited'
      exact (same.elim nonblank other).elim
    | reworded => rfl

/-- A draft that is not refused only says something about the terms. -/
lemma Ends.of_terms {ending : Ending} {e'' : Editor} (h : Ends index e e' ending)
    (accepted : ending ≠ .refused) (terms : e''.terms = e'.terms) : Ends index e e'' ending := by
  cases h with
  | refused => exact (accepted rfl).elim
  | kept held edited valid same kept => exact .kept held edited valid same (terms.trans kept)
  | reworded held edited valid nonblank other rewords set =>
    exact .reworded held edited valid nonblank other rewords (terms.trans set)

/-- What the draft of a term slot is read as is its term under a new label. -/
lemma rewords_of_reading {current t : Term} {draft : Line}
    (held : e.terms.get? index = some current) (edited : e.draft = some draft)
    (focus : e.focus = .term index) (read : e.reading (.term index) = some t) :
    Rewords draft.trimmed e current t := by
  have text : (e.slotText (.term index)).trim = draft.trimmed :=
    congrArg Text.trim (slotText_draft focus edited)
  obtain ⟨_, composed⟩ := reading_eq_some read
  rw [text, Editor.composed, held_term held] at composed
  obtain ⟨label, tag, kind⟩ := prepare_fields e.grammar
    { label := draft.trimmed
      search := ((e.suggested draft.trimmed).map (·.search)).getD draft.trimmed
      tag := ((e.suggested draft.trimmed).bind (·.tag)).or current.tag
      kind := (current.kind.or ((e.suggested draft.trimmed).bind (·.kind))).or e.expected }
  rw [← composed] at label tag kind
  refine ⟨label, reading_kind_of_held read held, tag, ?_⟩
  rw [label, tag, kind]
  exact congrArg Term.search composed

/-- A save ends in one of the three ways, and the slot may be left unless the draft is refused. -/
lemma ends_save {current : Term} {draft : Line} (held : e.terms.get? index = some current)
    (edited : e.draft = some draft) (focus : e.focus = .term index) :
    ∃ ending, Ends index e (e.save index).2.editor ending ∧
      ((e.save index).1 = false ↔ ending = .refused) := by
  have cases := save_cases index e
  generalize e.save index = saved at cases
  cases cases with
  | absent absent => exact (not_absent held edited focus absent).elim
  | refused edited _ check => exact ⟨_, .refused edited check rfl, iff_of_true rfl rfl⟩
  | blank held edited _ check blank =>
    exact ⟨_, .kept held edited check (.inl blank) rfl, iff_of_false nofun nofun⟩
  | kept held edited _ check read label =>
    have same := (rewords_of_reading held edited focus read).label
    exact ⟨_, .kept held edited check (.inr (same.symm.trans label.symm)) rfl,
      iff_of_false nofun nofun⟩
  | @replaced _ draft _ held edited _ check read label =>
    have rewords := rewords_of_reading held edited focus read
    have nonblank : draft.trimmed ≠ [] := by
      have nonblank := (reading_text read).1
      rwa [slotText_draft focus edited] at nonblank
    have other : draft.trimmed ≠ _ := fun same => label (same.symm.trans rewords.label.symm)
    exact ⟨_, .reworded held edited check nonblank other rewords rfl, iff_of_false nofun nofun⟩

/-- A draft that is saved ends in exactly one way: it is refused and nothing changes but its message,
it says nothing new and the terms stay, or it becomes the label of its term. The focus goes where the
display takes it, unless the draft is refused. -/
theorem save_ends_once (reachable : e.Reachable) (focus : e.focus = .term index)
    (saves : e.Saves index message) :
    let e' := (e.update message).1
    (∃! ending, Ends index e e' ending) ∧
      ∀ slot, message = .focused slot → (e'.focus = slot ↔ ¬ Ends index e e' .refused) := by
  obtain ⟨lt, edited⟩ := reachable.wellFormed.focus.term index focus
  obtain ⟨draft, edited⟩ := Option.isSome_iff_exists.mp edited
  obtain ⟨ending, ends, refused_iff⟩ := ends_save (List.getElem?_eq_getElem lt) edited focus
  intro e'
  rcases saves with rfl | ⟨slot, rfl, leaves⟩
  · exact ⟨⟨ending, ends, fun _ other => other.unique ends⟩, nofun⟩
  · have after : e' = (e.focused slot).editor := rfl
    rcases focused_away leaves.away with ⟨input, _⟩ | ⟨left, focus', free | stuck⟩
    · cases focus.symm.trans input
    · cases focus.symm.trans focus'
      have accepted : ending ≠ .refused :=
        fun refused => free.1 ((save_refused_iff focus).mp (refused_iff.mpr refused))
      have entered : e' = ((e.save index).2.editor.enter slot).editor := by
        rw [after, free.2]
        rfl
      have ends : Ends index e e' ending :=
        ends.of_terms accepted ((congrArg terms entered).trans (terms_enter slot _))
      refine ⟨⟨ending, ends, fun _ other => other.unique ends⟩, ?_⟩
      rintro _ ⟨⟩
      refine iff_of_true ?_ fun refused => accepted (ends.unique refused)
      rw [entered]
      exact (enter_focus slot _).1
    · cases focus.symm.trans focus'
      cases refused_iff.mp ((save_refused_iff focus).mpr stuck.1)
      have claimed : e' = (e.save index).2.editor := by
        rw [after, stuck.2]
        rfl
      rw [← claimed] at ends
      refine ⟨⟨.refused, ends, fun _ other => other.unique ends⟩, ?_⟩
      rintro _ ⟨⟩
      refine iff_of_false ?_ (not_not.mpr ends)
      obtain ⟨_, _, marked⟩ := ends
      rw [marked]
      exact leaves.2.1.symm

/-- A suggested column takes the place of another one when the focus goes back to the input. -/
theorem save_ends_once_suggested :
    let suggestion := Suggestion.record
      [("termLabel".toList, ['b']), ("termSearch".toList, ['x', ' '])]
    let e := (ofTree {} (.condition ⟨['a'], ['='], .text ['v'], none⟩)).run
      [.focused (.term 0), .suggestion (.term 0) suggestion]
    let e' := (e.update (.focused .input)).1
    e.Reachable ∧ e.focus = .term 0 ∧ e.Saves 0 (.focused .input) ∧ Ends 0 e e' .reworded ∧
      e'.focus = .input ∧ e'.serialized = "x%20 = v" := by
  intro suggestion e
  have reachable : e.Reachable := ⟨_, _, .ofTree {} _, rfl⟩
  have focus : e.focus = .term 0 := by decide
  have saves : e.Saves 0 (.focused .input) := .inr ⟨.input, rfl, focus, by decide, nofun⟩
  have changed : (e.update (.focused .input)).1.serialized ≠ e.serialized := by decide
  obtain ⟨⟨ending, ends, unique⟩, moved⟩ := save_ends_once reachable focus saves
  have reworded : ending = .reworded := by
    cases ends with
    | refused _ _ marked =>
      rw [marked] at changed
      exact (changed rfl).elim
    | kept _ _ _ _ terms => exact (changed (congrArg Sequence.serialized terms)).elim
    | reworded => rfl
  subst reworded
  have left := (moved .input rfl).mpr fun refused => nomatch unique _ refused
  exact ⟨reachable, focus, saves, ends, left, by decide⟩

end FilterEditor.Editor
