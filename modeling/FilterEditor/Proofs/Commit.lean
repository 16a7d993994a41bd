import FilterEditor.Editor.Commit
import Mathlib.Tactic.Common

/-!
# Reading and saving slots

What reading a slot gives and what saving a draft comes to. A text that is not blank is read as the
term that it stands for (`composed`), and `save_cases` lists the five ways in which a save can end;
whoever reasons about reading or saving goes by these and never looks at the code.
-/

namespace FilterEditor.Editor

variable {slot : Slot} {e e' : Editor} {t : Term} {text : Text}

/-- The term that a slot already holds, or a bare one. -/
def held (slot : Slot) (e : Editor) : Term :=
  (slot.index?.bind e.terms.get?).getD (Term.plain [])

lemma held_term {index : Nat} (held : e.terms.get? index = some t) : e.held (.term index) = t := by
  simp [Editor.held, Slot.index?, held]

/-- The carried suggestion, if its label is the given text. -/
def suggested (text : Text) (e : Editor) : Option Term := e.carried.filter (·.label = text)

lemma suggested_of_none (carried : e.carried = none) : e.suggested text = none := by
  rw [suggested, carried]
  rfl

lemma suggested_of_some {suggestion : Term} (carried : e.carried = some suggestion) :
    e.suggested text = if suggestion.label = text then some suggestion else none := by
  rw [suggested, carried, Option.filter_some]
  simp only [decide_eq_true_eq]

/-- The term that a text in a slot stands for: the one that the slot holds under its new label, with
what a suggestion of that label brings along. -/
def composed (slot : Slot) (text : Text) (e : Editor) : Term :=
  let suggestion := e.suggested text
  e.grammar.prepare
    { label := text
      search := (suggestion.map (·.search)).getD text
      tag := (suggestion.bind (·.tag)).or (e.held slot).tag
      kind := ((e.held slot).kind.or (suggestion.bind (·.kind))).or e.expected }

/-- Preparing a term touches neither its label, nor its tag, nor its kind. -/
lemma prepare_fields (g : Grammar) (t : Term) :
    (g.prepare t).label = t.label ∧ (g.prepare t).tag = t.tag ∧ (g.prepare t).kind = t.kind := by
  unfold Grammar.prepare
  split
  · exact ⟨rfl, rfl, rfl⟩
  · split <;> exact ⟨rfl, rfl, rfl⟩

lemma reading_of_blank (blank : (e.slotText slot).trim = []) : e.reading slot = none := by
  simp [reading, blank]

/-- A text that is not blank is read as the term that it stands for. -/
lemma reading_of_nonblank (nonblank : (e.slotText slot).trim ≠ []) :
    e.reading slot = some (e.composed slot (e.slotText slot).trim) := by
  have nonempty : (e.slotText slot).trim.isEmpty = false := List.isEmpty_eq_false_iff.mpr nonblank
  have base : (slot.index?.bind e.terms.get?).getD (Term.plain []) = e.held slot := rfl
  unfold reading composed
  simp only [nonempty, base, Bool.false_eq_true, if_false]
  cases carried : e.carried with
  | none =>
    simp only [suggested_of_none carried, Option.bind_none, Option.or_none]
    rfl
  | some suggestion =>
    rw [suggested_of_some carried]
    by_cases same : suggestion.label = (e.slotText slot).trim
    · simp only [if_pos same]
      rfl
    · simp only [if_neg same, Option.bind_none, Option.or_none]
      rfl

lemma reading_eq_none (h : e.reading slot = none) : (e.slotText slot).trim = [] := by
  by_contra nonblank
  cases (reading_of_nonblank nonblank).symm.trans h

lemma reading_eq_some (h : e.reading slot = some t) :
    (e.slotText slot).trim ≠ [] ∧ t = e.composed slot (e.slotText slot).trim := by
  have nonblank : (e.slotText slot).trim ≠ [] := fun blank => by
    cases (reading_of_blank blank).symm.trans h
  exact ⟨nonblank, Option.some.inj (h.symm.trans (reading_of_nonblank nonblank))⟩

lemma read?_eq_some (h : e.read? slot = some (t, e')) :
    e.reading slot = some t ∧ e' = { e with carried := none } := by
  obtain ⟨t', read, eq⟩ := Option.map_eq_some_iff.mp h
  cases eq
  exact ⟨read, rfl⟩

/-- The kind of a reading is that of the held term, of the carried suggestion or the expected one,
whichever there is first. -/
lemma reading_kind (h : e.reading slot = some t) :
    t.kind = ((e.held slot).kind.or
      ((e.suggested (e.slotText slot).trim).bind (·.kind))).or e.expected := by
  rw [(reading_eq_some h).2]
  exact (prepare_fields _ _).2.2

/-- A term that has a kind keeps it. -/
lemma reading_kind_of_held {index : Nat} {current : Term} (h : e.reading (.term index) = some t)
    (held : e.terms.get? index = some current) (kind : current.kind.isSome) :
    t.kind = current.kind := by
  obtain ⟨k, hk⟩ := Option.isSome_iff_exists.mp kind
  rw [reading_kind h, held_term held, hk]
  rfl

lemma reading_kind_isSome (h : e.reading slot = some t) (expected : e.expected.isSome) :
    t.kind.isSome := by
  rw [reading_kind h, Option.isSome_or, expected, Bool.or_true]

/-- The text of a slot, without white space at its ends, is read as a label. -/
lemma reading_text (read : e.reading slot = some t) :
    (e.slotText slot).trim ≠ [] ∧ t.label = (e.slotText slot).trim := by
  obtain ⟨nonblank, rfl⟩ := reading_eq_some read
  exact ⟨nonblank, (prepare_fields _ _).1⟩

/-- Where no suggestion is carried, the text of a term slot is read as the label of its term. -/
lemma reading_label {index : Nat} {current : Term} (carried : e.carried = none)
    (held : e.terms.get? index = some current) (kind : current.kind.isSome)
    (read : e.reading (.term index) = some t) :
    (e.slotText (.term index)).trim ≠ [] ∧ t.label = (e.slotText (.term index)).trim ∧
      t.tag = current.tag ∧ t.kind = current.kind := by
  have kept := reading_kind_of_held read held kind
  obtain ⟨nonblank, rfl⟩ := reading_eq_some read
  obtain ⟨label, tag, _⟩ := prepare_fields e.grammar _
  refine ⟨nonblank, label, tag.trans ?_, kept⟩
  rw [suggested_of_none carried, held_term held]
  rfl

/-! ## Committing -/

/-- Where no suggestion is carried, the text of the trailing input is read as a term of the expected
kind. -/
lemma reading_input (carried : e.carried = none) (nonempty : e.input.trimmed ≠ []) :
    e.reading .input =
      some (e.grammar.prepare ⟨e.input.trimmed, e.input.trimmed, none, e.expected⟩) := by
  have nonblank : (e.slotText .input).trim ≠ [] := nonempty
  rw [reading_of_nonblank nonblank, composed, suggested_of_none carried]
  rfl

/-- What committing the trailing input comes to. -/
inductive Exchanged (e : Editor) : Change → Prop
  /-- A blank input stays. -/
  | blank (blank : e.input.text.trim = []) : Exchanged e e.unchanged
  /-- The input joins the terms. -/
  | added {t : Term} (read : e.reading .input = some t) :
      Exchanged e
        ⟨{ ({ e with carried := none }.add t).editor with input := {} },
          .notify .resetCompletion :: ({ e with carried := none }.add t).effects ++
            [.writeValue .input []]⟩

/-- The trailing input is blank or joins the terms. -/
lemma exchange_cases (e : Editor) : Exchanged e e.exchange := by
  unfold exchange
  split
  · rename_i h
    exact .blank (reading_eq_none (Option.map_eq_none_iff.mp h))
  · rename_i t e' h
    obtain ⟨read, rfl⟩ := read?_eq_some h
    exact .added read

/-- Nothing is left pending. -/
lemma exchange_blank (e : Editor) : e.exchange.editor.input.trimmed = [] := by
  have cases := exchange_cases e
  generalize e.exchange = c at cases
  cases cases with
  | blank blank => exact blank
  | added => rfl

lemma exchange_unchanged (blank : e.input.trimmed = []) : e.exchange = e.unchanged := by
  have none : e.reading .input = none := reading_of_blank blank
  simp only [exchange, read?, none]
  rfl

lemma exchange_of_blank (blank : e.input.trimmed = []) : e.exchange.editor = e :=
  congrArg Change.editor (exchange_unchanged blank)

lemma exchange_of_reading (read : e.reading .input = some t) :
    e.exchange.editor = { ({ e with carried := none }.add t).editor with input := {} } := by
  simp only [exchange, read?, read]
  rfl

/-- Where no suggestion is carried, a text that is not blank joins the terms as it is, with the expected
kind. -/
lemma exchange_of_nonblank (carried : e.carried = none) (nonblank : e.input.trimmed ≠ []) :
    ∃ t, t.label = e.input.trimmed ∧ t.tag = none ∧ t.kind = e.expected ∧
      e.exchange.editor = { ({ e with carried := none }.add t).editor with input := {} } := by
  have read := reading_input carried nonblank
  obtain ⟨label, tag, kind⟩ :=
    prepare_fields e.grammar ⟨e.input.trimmed, e.input.trimmed, none, e.expected⟩
  exact ⟨_, label, tag, kind, exchange_of_reading read⟩

/-! ## Saving -/

/-- What saving the draft of a term slot comes to. -/
inductive Saved (index : Nat) (e : Editor) : Bool × Change → Prop
  /-- There is no draft of that slot. -/
  | absent (absent : e.terms.get? index = none ∨ e.draft = none ∨ e.focus ≠ .term index) :
      Saved index e (true, e.unchanged)
  /-- The draft is refused and keeps the focus. -/
  | refused {draft : Line} {message : Text} (edited : e.draft = some draft)
      (focus : e.focus = .term index)
      (check : e.check (.term index) draft.text = .invalid message) :
      Saved index e
        (false, ⟨{ e with validity := some message },
          [.setValidity (.term index) (some message), .reportValidity (.term index)]⟩)
  /-- A blank draft turns back into the label. -/
  | blank {current : Term} {draft : Line} (held : e.terms.get? index = some current)
      (edited : e.draft = some draft) (focus : e.focus = .term index)
      (check : e.check (.term index) draft.text = .valid)
      (blank : draft.text.trim = []) :
      Saved index e
        (true, ⟨{ e with validity := none, draft := some (Line.ofText current.label) },
          [.writeValue (.term index) current.label]⟩)
  /-- The label stays as it was. -/
  | kept {current : Term} {draft : Line} {t : Term} (held : e.terms.get? index = some current)
      (edited : e.draft = some draft) (focus : e.focus = .term index)
      (check : e.check (.term index) draft.text = .valid)
      (read : e.reading (.term index) = some t) (label : current.label = t.label) :
      Saved index e (true, ⟨{ e with validity := none, carried := none }, []⟩)
  /-- The term takes the place of the one that the slot held. -/
  | replaced {current : Term} {draft : Line} {t : Term} (held : e.terms.get? index = some current)
      (edited : e.draft = some draft) (focus : e.focus = .term index)
      (check : e.check (.term index) draft.text = .valid)
      (read : e.reading (.term index) = some t) (label : current.label ≠ t.label) :
      Saved index e
        (true, ⟨{ e with
            validity := none, carried := none,
            terms := e.terms.withTerms (e.terms.terms.set index t) },
          [.updateTerm index t,
            .syncValue (e.terms.withTerms (e.terms.terms.set index t)).serialized]⟩)

/-- A slot in focus that holds a term and a draft has something to save. -/
lemma not_absent {index : Nat} {current : Term} {draft : Line}
    (held : e.terms.get? index = some current) (edited : e.draft = some draft)
    (focus : e.focus = .term index) :
    ¬ (e.terms.get? index = none ∨ e.draft = none ∨ e.focus ≠ .term index) := by
  rw [held, edited]
  rintro (none | none | elsewhere)
  · cases none
  · cases none
  · exact elsewhere focus

lemma slotText_draft {index : Nat} {draft : Line} (focus : e.focus = .term index)
    (h : e.draft = some draft) : e.slotText (.term index) = draft.text := by
  simp [slotText, focus, h]

/-- A save ends in one of five ways. -/
lemma save_cases (index : Nat) (e : Editor) : Saved index e (e.save index) := by
  unfold save
  dsimp only
  split
  · rename_i current draft held hd
    split
    · rename_i focus
      exact .absent (.inr (.inr focus))
    · rename_i focus
      have focus := not_not.mp focus
      split
      · rename_i check
        exact .refused hd focus check
      · rename_i check
        split
        · rename_i read
          -- The message is gone by now, but the text of the slot does not depend on it.
          have blank := reading_eq_none (Option.map_eq_none_iff.mp read)
          have text : ({ e with validity := none } : Editor).slotText (.term index) = draft.text :=
            slotText_draft focus hd
          rw [text] at blank
          exact .blank held hd focus check blank
        · rename_i t e' read
          obtain ⟨reading, rfl⟩ := read?_eq_some read
          simp only [Sequence.replace?, show e.terms.terms[index]? = some current from held]
          by_cases label : current.label = t.label
          · simp only [label, if_true]
            exact .kept held hd focus check reading label
          · simp only [label, if_false]
            exact .replaced held hd focus check reading label
  · rename_i absent
    apply Saved.absent
    cases held : e.terms.get? index with
    | none => exact .inl rfl
    | some current =>
      cases hd : e.draft with
      | none => exact .inr (.inl rfl)
      | some draft => exact (absent current draft held hd).elim

/-- What saving the draft of a slot in focus comes to, as an equation. -/
lemma save_eq {index : Nat} {current : Term} {draft : Line}
    (held : e.terms.get? index = some current) (edited : e.draft = some draft)
    (focus : e.focus = .term index) :
    e.save index =
      match e.check (.term index) draft.text with
      | .invalid message =>
        (false, ⟨{ e with validity := some message },
          [.setValidity (.term index) (some message), .reportValidity (.term index)]⟩)
      | .valid =>
        match e.reading (.term index) with
        | none =>
          (true, ⟨{ e with validity := none, draft := some (Line.ofText current.label) },
            [.writeValue (.term index) current.label]⟩)
        | some t =>
          if current.label = t.label then
            (true, ⟨{ e with validity := none, carried := none }, []⟩)
          else
            (true, ⟨{ e with
                validity := none, carried := none,
                terms := e.terms.withTerms (e.terms.terms.set index t) },
              [.updateTerm index t,
                .syncValue (e.terms.withTerms (e.terms.terms.set index t)).serialized]⟩) := by
  have h := save_cases index e
  generalize e.save index = saved at h
  cases h with
  | absent absent => exact (not_absent held edited focus absent).elim
  | refused edited' _ check =>
    cases edited.symm.trans edited'
    rw [check]
  | blank held' edited' _ check blank =>
    cases held.symm.trans held'
    cases edited.symm.trans edited'
    have none : e.reading (.term index) = none := by
      apply reading_of_blank
      rw [slotText_draft focus edited, blank]
    rw [check, none]
  | kept held' edited' _ check read label =>
    cases held.symm.trans held'
    cases edited.symm.trans edited'
    rw [check, read]
    exact (if_pos label).symm
  | replaced held' edited' _ check read label =>
    cases held.symm.trans held'
    cases edited.symm.trans edited'
    rw [check, read]
    exact (if_neg label).symm

lemma save_length (index : Nat) (e : Editor) :
    (e.save index).2.editor.terms.length = e.terms.length := by
  have h := save_cases index e
  generalize e.save index = saved at *
  cases h with
  | replaced => exact List.length_set
  | _ => rfl

/-- Only the draft of the slot in focus can be saved. -/
lemma save_elsewhere {index : Nat} (elsewhere : e.focus ≠ .term index) :
    e.save index = (true, e.unchanged) := by
  have h := save_cases index e
  generalize e.save index = saved at h
  cases h with
  | absent => rfl
  | refused _ focus | blank _ _ focus | kept _ _ focus | replaced _ _ focus =>
    exact (elsewhere focus).elim

end FilterEditor.Editor
