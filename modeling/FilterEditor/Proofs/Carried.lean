import FilterEditor.Proofs.Genuine
import FilterEditor.Proofs.Keeping
import FilterEditor.Proofs.Quiet

/-!
# Carried suggestions

A suggestion is written into one slot and carried until a slot is read. It has no say in anything
before: an editor with one suggestion and the same editor with another go in lockstep
(`Reads.keeps`). The first slot that is read takes it up, whichever slot that is, and from then on
none is carried (`Reads.takes`). So a suggestion reaches another slot than its own just if that slot
is read first, with the label of the suggestion.
-/

namespace FilterEditor

/-- A term that was read from a slot, with what a carried suggestion of the same label adds to it. A
term in a slot that has a kind keeps its kind. -/
def Term.takeUp (g : Grammar) (typed : Bool) (suggestion : Option Term) (t : Term) : Term :=
  match suggestion with
  | none => t
  | some s =>
    if s.label = t.label then
      g.prepare { t with
        search := s.search
        tag := s.tag.or t.tag
        kind := if typed then t.kind else s.kind.or t.kind }
    else t

/-- What follows once the suggestion of a message is written: the trailing input is committed if the
suggestion was chosen for it. -/
def Message.followUp : Message → List Message
  | .completion .input _ => [.exchange]
  | _ => []

namespace Editor

variable {e : Editor} {g : Grammar} {typed : Bool} {f : Option Term → Change}
  {step : Editor → Change}

/-- A family of changes, one for each carried suggestion, that reads at most one slot while a
suggestion is carried. -/
inductive Reads (g : Grammar) (typed : Bool) (f : Option Term → Change) : Prop
  /-- Nothing is read, and the suggestion is still carried. -/
  | keeps (c : Change) (each : ∀ r, f r = c.carrying r) (unread : Unread c.effects)
  /-- The suggestion is dropped, and no term comes of it. -/
  | drops (c : Change) (each : ∀ r, f r = c) (unread : Unread c.effects)
      (gone : c.editor.carried = none)
  /-- A slot is read. What it is read as depends on the suggestion, what comes next only on that. -/
  | takes (t : Term) (next : Term → Change) (each : ∀ r, f r = next (t.takeUp g typed r))
      (taken : ∀ u, taken? (next u).effects = some u)
      (gone : ∀ u, (next u).editor.carried = none)

lemma Quiet.reads (h : Quiet step) (e : Editor) : Reads g typed fun r => step (e.carrying r) :=
  .keeps (step e) (h.carrying e) (h.unread e)

namespace Reads

/-- A quiet step behind a family. -/
lemma andThen (h : Reads g typed f) (quiet : Quiet step) :
    Reads g typed fun r => (f r).andThen step := by
  cases h with
  | keeps c each unread =>
    refine .keeps (c.andThen step) (fun r => ?_) (unread.append (quiet.unread _))
    rw [each]
    simp only [Change.andThen, Change.carrying, quiet.carrying]
  | drops c each unread gone =>
    refine .drops (c.andThen step) (fun r => ?_) (unread.append (quiet.unread _)) (quiet.gone gone)
    rw [each]
  | takes t next each taken gone =>
    refine .takes t (fun u => (next u).andThen step) (fun r => ?_)
      (fun u => taken?_append (taken u)) (fun u => quiet.gone (gone u))
    rw [each]

/-- A family behind a quiet step. -/
lemma after {first : Editor → Change} (quiet : Quiet first)
    (h : Reads g typed fun r => step ((first e).editor.carrying r)) :
    Reads g typed fun r => (first (e.carrying r)).andThen step := by
  have split : ∀ r, (first (e.carrying r)).andThen step =
      ⟨(step ((first e).editor.carrying r)).editor,
        (first e).effects ++ (step ((first e).editor.carrying r)).effects⟩ := fun r => by
    rw [quiet.carrying]
    rfl
  have unread := quiet.unread e
  cases h with
  | keeps c each still =>
    refine .keeps ⟨c.editor, (first e).effects ++ c.effects⟩ (fun r => ?_) (unread.append still)
    rw [split, each]
    rfl
  | drops c each still gone =>
    refine .drops ⟨c.editor, (first e).effects ++ c.effects⟩ (fun r => ?_) (unread.append still)
      gone
    rw [split, each]
  | takes t next each taken gone =>
    refine .takes t (fun u => ⟨(next u).editor, (first e).effects ++ (next u).effects⟩)
      (fun r => ?_) (fun u => unread.skip.trans (taken u)) gone
    rw [split, each]

end Reads

/-! ## Steps that read a slot -/

/-- Whether the term in a slot has a kind. -/
def isTyped (slot : Slot) (e : Editor) : Bool := (e.held slot).kind.isSome

lemma label_takeUp (g : Grammar) (typed : Bool) (r : Option Term) (t : Term) :
    (t.takeUp g typed r).label = t.label := by
  unfold Term.takeUp
  split
  · rfl
  · split
    · exact (prepare_fields g _).1
    · rfl

/-- What a text stands for is what it stands for without a suggestion, with what the suggestion adds. -/
lemma composed_carrying (slot : Slot) (text : Text) (e : Editor) (r : Option Term) :
    (e.carrying r).composed slot text =
      ((e.carrying none).composed slot text).takeUp e.grammar (e.isTyped slot) r := by
  cases r with
  | none => rfl
  | some s =>
    have alone : (e.carrying none).suggested text = none := suggested_of_none rfl
    have along : (e.carrying (some s)).suggested text = if s.label = text then some s else none :=
      suggested_of_some rfl
    have bare : (e.carrying none).composed slot text =
        e.grammar.prepare
          ⟨text, text, (e.held slot).tag, (e.held slot).kind.or e.expected⟩ := by
      simp only [composed, alone, Option.bind_none, Option.or_none]
      rfl
    obtain ⟨label, tag, kind⟩ := prepare_fields e.grammar
      ⟨text, text, (e.held slot).tag, (e.held slot).kind.or e.expected⟩
    rw [bare, Term.takeUp]
    simp only [label, tag, kind]
    by_cases same : s.label = text
    · have kinds : (if e.isTyped slot then (e.held slot).kind.or e.expected
          else s.kind.or ((e.held slot).kind.or e.expected)) =
            ((e.held slot).kind.or s.kind).or e.expected := by
        unfold isTyped
        cases (e.held slot).kind <;> cases s.kind <;> rfl
      simp only [composed, along, if_pos same, kinds]
      rfl
    · simp only [composed, along, if_neg same, Option.bind_none, Option.or_none]
      rfl

/-- What a slot is read as is what it is read as without a suggestion, with what the suggestion
adds. -/
lemma reading_carrying (slot : Slot) (e : Editor) (r : Option Term) :
    (e.carrying r).reading slot =
      ((e.carrying none).reading slot).map (Term.takeUp e.grammar (e.isTyped slot) r) := by
  have text : ∀ r, (e.carrying r).slotText slot = e.slotText slot := fun r => by
    cases slot <;> rfl
  by_cases blank : (e.slotText slot).trim = []
  · have none : ∀ r, (e.carrying r).reading slot = none := fun r =>
      reading_of_blank (text r ▸ blank)
    rw [none, none]
    rfl
  · have some : ∀ r, (e.carrying r).reading slot =
        some ((e.carrying r).composed slot (e.slotText slot).trim) := fun r => by
      rw [← text r]
      exact reading_of_nonblank (text r ▸ blank)
    rw [some, some, composed_carrying, Option.map_some]

/-- The term joins the sequence in place of the text in the trailing input. -/
def committed (t : Term) (e : Editor) : Change :=
  let added := (e.carrying none).add t
  ⟨{ added.editor with input := {} },
    .notify .resetCompletion :: added.effects ++ [.writeValue .input []]⟩

/-- The trailing input is blank whatever is carried, or it is read and committed. -/
lemma exchange_carrying (e : Editor) :
    (∀ r, (e.carrying r).exchange = (e.carrying r).unchanged) ∨
      ∃ t : Term, ∀ r, (e.carrying r).exchange = e.committed (t.takeUp e.grammar false r) := by
  have read : ∀ r, (e.carrying r).reading .input =
      ((e.carrying none).reading .input).map (Term.takeUp e.grammar false r) := fun r =>
    reading_carrying .input e r
  generalize (e.carrying none).reading .input = bare at read
  cases bare with
  | none =>
    refine .inl fun r => ?_
    simp only [exchange, read?, read]
    rfl
  | some t =>
    refine .inr ⟨t, fun r => ?_⟩
    simp only [exchange, read?, read]
    rfl

lemma reads_exchange (e : Editor) :
    Reads e.grammar false fun r => (e.carrying r).exchange := by
  rcases exchange_carrying e with blank | ⟨t, read⟩
  · simp only [blank]
    exact quiet_unchanged.reads e
  · exact .takes t (fun u => e.committed u) read (fun _ => rfl) fun _ => rfl

/-- Whether a save is refused does not depend on the carried suggestion. -/
lemma reads_save (index : Nat) (e : Editor) :
    (∀ r, ((e.carrying r).save index).1 = (e.save index).1) ∧
      Reads e.grammar (e.isTyped (.term index)) fun r => ((e.carrying r).save index).2 := by
  have idle : (∀ r, (e.carrying r).save index = (true, (e.carrying r).unchanged)) →
      (∀ r, ((e.carrying r).save index).1 = (e.save index).1) ∧
        Reads e.grammar (e.isTyped (.term index)) fun r => ((e.carrying r).save index).2 := by
    intro each
    have same : e.save index = (true, e.unchanged) := each e.carried
    refine ⟨fun r => by rw [each, same], .keeps e.unchanged (fun r => ?_) rfl⟩
    rw [each]
    rfl
  by_cases focus : e.focus = .term index
  case neg => exact idle fun r => save_elsewhere (e := e.carrying r) focus
  cases held : e.terms.get? index with
  | none =>
    refine idle fun r => ?_
    have held' : (e.carrying r).terms.get? index = none := held
    simp only [save, held']
  | some current =>
    cases edited : e.draft with
    | none =>
      refine idle fun r => ?_
      have held' : (e.carrying r).terms.get? index = some current := held
      have edited' : (e.carrying r).draft = none := edited
      simp only [save, held', edited']
    | some draft =>
      have saved : ∀ r, (e.carrying r).save index = _ := fun r =>
        save_eq (e := e.carrying r) held edited focus
      have check : ∀ r, (e.carrying r).check (.term index) draft.text =
          e.check (.term index) draft.text := fun _ => rfl
      have read := reading_carrying (.term index) e
      have own : e.save index = (e.carrying e.carried).save index := rfl
      generalize (e.carrying none).reading (.term index) = bare at read
      simp only [own, saved, check, read]
      cases e.check (.term index) draft.text with
      | invalid message =>
        exact ⟨fun _ => rfl, .keeps ⟨{ e with validity := some message }, _⟩ (fun _ => rfl) rfl⟩
      | valid =>
        cases bare with
        | none =>
          exact ⟨fun _ => rfl,
            .keeps ⟨{ e with validity := none, draft := _ }, _⟩ (fun _ => rfl) rfl⟩
        | some t =>
          simp only [Option.map_some, label_takeUp]
          by_cases kept : current.label = t.label
          · simp only [if_pos kept]
            exact ⟨fun _ => trivial,
              .drops ⟨{ e with validity := none, carried := none }, []⟩ (fun _ => rfl) rfl rfl⟩
          · simp only [if_neg kept]
            refine ⟨fun _ => trivial, .takes t (fun u =>
              ⟨{ e with
                  validity := none, carried := none,
                  terms := e.terms.withTerms (e.terms.terms.set index u) },
                [.updateTerm index u,
                  .syncValue (e.terms.withTerms (e.terms.terms.set index u)).serialized]⟩)
              (fun _ => rfl) (fun _ => rfl) (fun _ => rfl)⟩

/-- What follows an edit of the trailing input once the edit is dealt with. -/
lemma Reads.finish (h : Reads g typed f) :
    Reads g typed fun r => (((f r).andShow fun e => e.requestEffects .input e.input.text).andThen
      clearSelected).andShow placeholderEffects := by
  have asked : Quiet fun e => ⟨e, e.requestEffects .input e.input.text⟩ :=
    Quiet.depending (fun e => e.input.text) (fun text e => ⟨e, e.requestEffects .input text⟩)
      (fun _ _ => rfl) (quiet_request .input)
  exact ((h.andThen asked).andThen quiet_clearSelected).andThen quiet_placeholder

lemma reads_afterInput (e : Editor) :
    Reads e.grammar false fun r => (e.carrying r).afterInput := by
  have idle : Reads e.grammar false fun r => (e.carrying r).unchanged := quiet_unchanged.reads e
  cases previewed : e.preview with
  | none =>
    have opened : ∀ r, (e.carrying r).afterInput =
        (((e.carrying r).unchanged.andShow fun e => e.requestEffects .input e.input.text).andThen
          clearSelected).andShow placeholderEffects := fun r => by
      have previewed' : (e.carrying r).preview = none := previewed
      simp only [afterInput, previewed']
    simp only [opened]
    exact idle.finish
  | some preview =>
    have opened : ∀ r, (e.carrying r).afterInput =
        if e.input.trimmed.isEmpty || !e.hasTerms then
          (((e.carrying r).unchanged.andShow fun e => e.requestEffects .input e.input.text).andThen
            clearSelected).andShow placeholderEffects
        else if (e.grammar.continuations e.input.trimmed e.expected
            (e.slotContext .input)).isPartial then (e.carrying r).unchanged
        else
          ((((if e.input.trimmed ≠ preview.label then (e.carrying r).add preview
            else (e.carrying r).exchange).andShow placeholderEffects).andShow
              fun e => e.requestEffects .input e.input.text).andThen
                clearSelected).andShow placeholderEffects := fun r => by
      have previewed' : (e.carrying r).preview = some preview := previewed
      simp only [afterInput, previewed']
      rfl
    simp only [opened]
    by_cases waits : e.input.trimmed.isEmpty || !e.hasTerms
    · simp only [if_pos waits]
      exact idle.finish
    · simp only [if_neg waits]
      by_cases begins : (e.grammar.continuations e.input.trimmed e.expected
          (e.slotContext .input)).isPartial
      · simp only [if_pos begins]
        exact idle
      · simp only [if_neg begins]
        refine Reads.finish (Reads.andThen ?_ quiet_placeholder)
        by_cases other : e.input.trimmed ≠ preview.label
        · simp only [if_pos other]
          exact (quiet_add preview).reads e
        · simp only [if_neg other]
          exact reads_exchange e

lemma reads_editSlot (change : Line → Option Line) (e : Editor) :
    Reads e.grammar false fun r => (e.carrying r).editSlot .input change := by
  cases edited : e.edit? .input change with
  | none =>
    have still : ∀ r, (e.carrying r).editSlot .input change =
        (e.carrying r).unchanged := fun r => by
      simp only [editSlot, edit_carrying, edited]
      rfl
    simp only [still]
    exact quiet_unchanged.reads e
  | some e' =>
    have written : ∀ r, (e.carrying r).editSlot .input change =
        Change.andThen ⟨e'.carrying r, (e'.carrying r).writeEffects .input⟩
          afterInput := fun r => by
      simp only [editSlot, edit_carrying, edited]
      rfl
    have grammar : e'.grammar = e.grammar := by
      obtain ⟨_, _, _, _, rfl⟩ := edit_eq edited
      rfl
    simp only [written, ← grammar]
    exact Reads.after (quiet_write .input) (reads_afterInput e')

/-- What is typed as it is into the trailing input. -/
lemma reads_insertPlain (c : Char) (e : Editor) :
    Reads e.grammar false fun r => (e.carrying r).insertPlain .input c :=
  reads_editSlot (Line.insertChar? c) e

lemma reads_confirmPreview (e : Editor) :
    Reads e.grammar false fun r => (e.carrying r).confirmPreview .input := by
  cases empty : e.input.isEmpty with
  | false =>
    have opened : ∀ r, (e.carrying r).confirmPreview .input =
        (e.carrying r).insertPlain .input ' ' := fun r => by
      have empty' : (e.carrying r).input.isEmpty = false := empty
      simp only [confirmPreview, empty', Bool.and_false, Bool.false_eq_true, if_false]
    simp only [opened]
    exact reads_insertPlain ' ' e
  | true =>
    have empty' : ∀ r, (e.carrying r).input.isEmpty = true := fun _ => empty
    cases previewed : e.preview with
    | none =>
      have opened : ∀ r, (e.carrying r).confirmPreview .input =
          (e.carrying r).unchanged.andShow (requestEffects .input []) := fun r => by
        have previewed' : (e.carrying r).preview = none := previewed
        simp only [confirmPreview, empty', previewed']
        rfl
      simp only [opened]
      exact (quiet_unchanged.andThen (quiet_request .input [])).reads e
    | some preview =>
      have opened : ∀ r, (e.carrying r).confirmPreview .input =
          ((e.carrying r).add preview).andShow (requestEffects .input []) := fun r => by
        have previewed' : (e.carrying r).preview = some preview := previewed
        simp only [confirmPreview, empty', previewed']
        rfl
      simp only [opened]
      exact ((quiet_add preview).andThen (quiet_request .input [])).reads e

/-- Where nothing is carried, nothing is carried afterwards. -/
lemma Reads.gone (h : Reads g typed f) : (f none).editor.carried = none := by
  cases h with
  | keeps c each =>
    rw [each]
    rfl
  | drops c each _ gone =>
    rw [each]
    exact gone
  | takes t next each _ gone =>
    rw [each]
    exact gone _

lemma reads_insertChar (c : Char) (e : Editor) :
    Reads e.grammar false fun r => (e.carrying r).insertChar .input c := by
  by_cases space : c = ' '
  · simp only [insertChar, if_pos space]
    exact reads_confirmPreview e
  have opened : ∀ r, (e.carrying r).insertChar .input c =
      if (e.grammar.continuations (e.typedText c) e.expected (e.slotContext .input)).isPartial then
        ((e.carrying r).exchange.andShow placeholderEffects).andThen (insertPlain .input c)
      else
        match (e.grammar.continuations (e.typedText c) e.expected
            (e.slotContext .input)).exactMatch? (e.typedText c) with
        | none => (e.carrying r).insertPlain .input c
        | some token =>
          ((if e.expected ≠ token.kind then (e.carrying r).exchange
            else
              ⟨{ e.carrying r with input := {} },
                writeEffects .input { e.carrying r with input := {} }⟩).andThen
            (add token)).andShow placeholderEffects := fun r => by
    rw [insertChar, if_neg space]
    rfl
  simp only [opened]
  generalize e.grammar.continuations (e.typedText c) e.expected (e.slotContext .input) = options
  by_cases begins : options.isPartial
  · simp only [if_pos begins]
    rcases exchange_carrying e with blank | ⟨t, read⟩
    · simp only [blank]
      exact Reads.after quiet_placeholder (reads_insertPlain c e)
    · -- What is typed next reads a slot without a suggestion, if it reads any.
      have gone : ∀ x : Editor, x.carried = none →
          (x.insertPlain .input c).editor.carried = none := fun x none => by
        have read := (reads_insertPlain c x).gone
        rw [carrying_self none] at read
        exact read
      refine .takes t
        (fun u => ((e.committed u).andShow placeholderEffects).andThen (insertPlain .input c))
        (fun r => ?_) (fun u => taken?_append (taken?_append rfl)) (fun u => gone _ rfl)
      rw [read]
  · simp only [if_neg begins]
    cases options.exactMatch? (e.typedText c) with
    | none => exact reads_insertPlain c e
    | some token =>
      refine Reads.andThen (Reads.andThen ?_ (quiet_add token)) quiet_placeholder
      by_cases other : e.expected ≠ token.kind
      · simp only [if_pos other]
        exact reads_exchange e
      · simp only [if_neg other]
        exact .keeps ⟨{ e with input := {} }, writeEffects .input { e with input := {} }⟩
          (fun _ => rfl) rfl

/-- Deleting from an empty trailing input takes the last term. -/
lemma reads_delete (e : Editor) :
    Reads e.grammar false fun r =>
      if e.input.isEmpty then (e.carrying r).pop
      else (e.carrying r).editSlot .input Line.deleteBackward? := by
  cases e.input.isEmpty with
  | true => exact quiet_pop.reads e
  | false => exact reads_editSlot _ e

lemma reads_deleteBackward (e : Editor) :
    Reads e.grammar false fun r => (e.carrying r).deleteBackward .input := by
  have trace : Trace .editing e e.clearSelected := trace_clearSelected e
  have cleared : e.clearSelected.editor.grammar = e.grammar :=
    trace.invariant (P := fun e' => e'.grammar = e.grammar)
      (fun _ _ _ step same => step.frame.2.trans same) rfl
  have deleted := reads_delete e.clearSelected.editor
  rw [cleared] at deleted
  have both : Reads e.grammar false fun r => (e.carrying r).clearSelected.andThen fun e =>
      if e.input.isEmpty then e.pop else e.editSlot .input Line.deleteBackward? :=
    Reads.after quiet_clearSelected deleted
  exact both.andThen quiet_placeholder

lemma reads_deleteForward (e : Editor) :
    Reads e.grammar false fun r => (e.carrying r).deleteForward .input :=
  ((reads_editSlot Line.deleteForward? e).andThen quiet_clearSelected).andThen quiet_placeholder

lemma reads_submit (e : Editor) : Reads e.grammar false fun r => (e.carrying r).submit := by
  have handed : Quiet fun e => ⟨e, [.submit e.serialized]⟩ :=
    quiet_show (fun _ _ => rfl) fun _ => rfl
  exact (((reads_exchange e).andThen quiet_placeholder).andThen quiet_markRequired).andThen handed

/-- Leaving a term slot reads it. -/
lemma reads_focused (slot : Slot) (e : Editor) :
    Reads e.grammar (e.isTyped e.focus) fun r => (e.carrying r).focused slot := by
  by_cases reached : e.Reached slot
  · have stays : ∀ r, (e.carrying r).focused slot = (e.carrying r).unchanged := fun r =>
      if_pos reached
    simp only [stays]
    exact quiet_unchanged.reads e
  cases focus : e.focus with
  | input =>
    have enters : ∀ r, (e.carrying r).focused slot = (e.carrying r).enter slot := fun r => by
      have away : ¬ (e.carrying r).Reached slot := reached
      rcases focused_away away with ⟨_, eq⟩ | ⟨left, elsewhere, _⟩
      · exact eq
      · cases focus.symm.trans elsewhere
    simp only [enters]
    exact (quiet_enter slot).reads e
  | term left =>
    obtain ⟨_, saved⟩ := reads_save left e
    have claim : Quiet fun e => ⟨e, [.focus e.focus]⟩ := quiet_show (fun _ _ => rfl) fun _ => rfl
    by_cases stuck : e.Stuck
    · have claims : ∀ r, (e.carrying r).focused slot =
          ((e.carrying r).save left).2.andShow fun e => [.focus e.focus] := fun r => by
        have away : ¬ (e.carrying r).Reached slot := reached
        rcases focused_away away with ⟨elsewhere, _⟩ | ⟨left', here, ⟨free, _⟩ | ⟨_, eq⟩⟩
        · cases focus.symm.trans elsewhere
        · exact (free stuck).elim
        · cases focus.symm.trans here
          exact eq
      simp only [claims]
      exact saved.andThen claim
    · have leaves : ∀ r, (e.carrying r).focused slot =
          ((e.carrying r).save left).2.andThen (enter slot) := fun r => by
        have away : ¬ (e.carrying r).Reached slot := reached
        rcases focused_away away with ⟨elsewhere, _⟩ | ⟨left', here, ⟨_, eq⟩ | ⟨stuck', _⟩⟩
        · cases focus.symm.trans elsewhere
        · cases focus.symm.trans here
          exact eq
        · exact (stuck stuck').elim
      simp only [leaves]
      exact saved.andThen (quiet_enter slot)

/-! ## Restoring -/

lemma unread_removal (e : Editor) : Unread e.removalEffects := unread_map (fun _ => rfl) _

lemma unread_render (e : Editor) : Unread e.renderEffects := by
  rw [renderEffects, List.mapIdx_eq_zipIdx_map]
  exact unread_map (fun _ => rfl) _

/-- Restoring terms drops the suggestion. -/
lemma reads_load (payload : Payload) (e : Editor) :
    Reads g typed fun r => (e.carrying r).loadOrIgnore payload := by
  have load : ∀ r, (e.carrying r).load payload = e.load payload := fun _ => rfl
  simp only [loadOrIgnore, load]
  cases loaded : e.load payload with
  | error message => exact quiet_unchanged.reads e
  | ok c =>
    obtain ⟨terms, _, _, rfl⟩ := load_eq_ok loaded
    refine .drops _ (fun _ => rfl) ?_ rfl
    split
    · rfl
    · exact ((unread_removal e).append (unread_render _)).append rfl

lemma reads_refresh (e : Editor) : Reads g typed fun r => (e.carrying r).refresh :=
  .drops e.refresh (fun _ => rfl) ((unread_render _).append rfl) rfl

lemma reads_reset (e : Editor) : Reads g typed fun r => (e.carrying r).reset :=
  .drops e.reset (fun _ => rfl) ((unread_removal e).append rfl) rfl

/-! ## Messages -/

/-- The slot that a message reads, if it reads any: a commit reads the trailing input, wherever the
focus is. -/
def source (e : Editor) : Message → Slot
  | .exchange | .submit => .input
  | _ => e.focus

/-- The term that a message reads from a slot, if it reads any. -/
def takes? (m : Message) (e : Editor) : Option Term := taken? (e.respond m).effects

/-- A message that suggests nothing reads at most one slot while a suggestion is carried. -/
lemma reads_respond {m : Message} (editing : m.scope ≠ .suggesting)
    (single : ∀ text, m ≠ .insertText text) (e : Editor) :
    Reads e.grammar (e.isTyped (e.source m)) fun r => (e.carrying r).respond m := by
  have focus : ∀ r, (e.carrying r).focus = e.focus := fun _ => rfl
  cases m with
  | insertText text => exact (single text rfl).elim
  | suggestion => exact (editing rfl).elim
  | completion => exact (editing rfl).elim
  | insertChar c =>
    simp only [respond, source, focus]
    cases here : e.focus with
    | input => exact reads_insertChar c e
    | term index =>
      simp only [insertChar_term]
      exact (quiet_editSlot index _).reads e
  | deleteBackward =>
    simp only [respond, source, focus]
    cases here : e.focus with
    | input => exact reads_deleteBackward e
    | term index => exact (quiet_editSlot index _).reads e
  | deleteForward =>
    simp only [respond, source, focus]
    cases here : e.focus with
    | input => exact reads_deleteForward e
    | term index => exact (quiet_editSlot index _).reads e
  | confirmPreview =>
    simp only [respond, source, focus]
    cases here : e.focus with
    | input => exact reads_confirmPreview e
    | term index => exact (quiet_editSlot index _).reads e
  | moveCursor direction => exact (quiet_moveCursor e.focus direction).reads e
  | moveStart => exact (quiet_moveInSlot e.focus _).reads e
  | moveEnd => exact (quiet_moveEnd e.focus).reads e
  | commitPreview => exact (quiet_commitPreview e.focus).reads e
  | cyclePreview direction => exact (quiet_cyclePreview direction).reads e
  | exchange => exact (reads_exchange e).andThen quiet_placeholder
  | removeLast => exact (quiet_pop.andThen quiet_placeholder).reads e
  | remove index => exact ((quiet_remove index).andThen quiet_placeholder).reads e
  | clearSelected => exact (quiet_clearSelected.andThen quiet_placeholder).reads e
  | save index =>
    by_cases here : e.focus = .term index
    · simp only [source, here]
      exact (reads_save index e).2
    · have idle : ∀ r, (e.carrying r).respond (.save index) = (e.carrying r).unchanged := fun r =>
        congrArg Prod.snd (save_elsewhere (e := e.carrying r) here)
      simp only [idle]
      exact quiet_unchanged.reads e
  | selectAll => exact quiet_selectAll.reads e
  | deselect => exact quiet_deselect.reads e
  | toggle index => exact (quiet_toggle index).reads e
  | forward =>
    have shown : Quiet fun e => ⟨e, focusEffects e.nextSlot?⟩ :=
      quiet_show (fun _ _ => rfl) fun _ => unread_map (fun _ => rfl) _
    exact shown.reads e
  | backward =>
    have shown : Quiet fun e => ⟨e, focusEffects e.previousSlot?⟩ :=
      quiet_show (fun _ _ => rfl) fun _ => unread_map (fun _ => rfl) _
    exact shown.reads e
  | focused slot => exact reads_focused slot e
  | load payload => exact reads_load payload e
  | refresh => exact reads_refresh e
  | reset => exact reads_reset e
  | submit => exact reads_submit e

/-! ## Where a suggestion ends up -/

/-- The effects of messages, one after the other. -/
def produced (e : Editor) : List Message → List Effect
  | [] => []
  | m :: rest => (e.respond m).effects ++ (e.respond m).editor.produced rest

/-- After messages, another one reads a different slot than the one that a suggestion was written
into before, wherever that slot has moved. -/
def Elsewhere (slot : Slot) (e : Editor) (before : List Message) (m : Message) : Prop :=
  Slot.follow (some slot) (e.produced before) ≠ some ((e.run before).source m)

/-- Messages read no term from the slot of a suggestion. -/
def Spared (slot : Slot) (e : Editor) (messages : List Message) : Prop :=
  ∀ before m, before ++ [m] <+: messages → ((e.run before).takes? m).isSome →
    e.Elsewhere slot before m

/-- Until a term is read from the slot of a suggestion, messages to different slots do the same in
an editor as in another one that carries something else. -/
def Confined (slot : Slot) (e e' : Editor) (messages : List Message) : Prop :=
  ∀ before m, before ++ [m] <+: messages → e.Spared slot before → e.Elsewhere slot before m →
    ((e'.run before).respond m).carrying none = ((e.run before).respond m).carrying none

/-- What a message reads from a slot, if it reads any, is the same with one suggestion as with
another. -/
def ReadsSame (r r' : Option Term) (e : Editor) (m : Message) : Prop :=
  ∀ t, (e.carrying none).takes? m = some t →
    t.takeUp e.grammar (e.isTyped (e.source m)) r = t.takeUp e.grammar (e.isTyped (e.source m)) r'

lemma Reads.taken (h : Reads g typed f) (r : Option Term) :
    taken? (f r).effects = (taken? (f none).effects).map (Term.takeUp g typed r) := by
  cases h with
  | keeps c each unread => rw [each, each, Change.carrying, Change.carrying, unread.taken?]; rfl
  | drops c each unread => rw [each, each, unread.taken?]; rfl
  | takes t next each taken => rw [each, each, taken, taken]; rfl

/-- Two suggestions make no difference just if what is read is the same with both. -/
lemma Reads.same_iff (h : Reads g typed f) (r r' : Option Term) :
    (f r').carrying none = (f r).carrying none ↔
      ∀ t, taken? (f none).effects = some t → t.takeUp g typed r = t.takeUp g typed r' := by
  cases h with
  | keeps c each unread =>
    refine iff_of_true (by rw [each, each]; rfl) fun t read => ?_
    rw [each] at read
    cases unread.taken?.symm.trans read
  | drops c each unread =>
    refine iff_of_true (by rw [each, each]) fun t read => ?_
    rw [each] at read
    cases unread.taken?.symm.trans read
  | takes t next each taken =>
    have read : taken? (f none).effects = some t := by rw [each]; exact taken t
    constructor
    · intro same t' read'
      cases read.symm.trans read'
      have effects : (f r').effects = (f r).effects := congrArg (·.effects) same
      have terms := congrArg taken? effects
      rw [each, each, taken, taken] at terms
      exact (Option.some.inj terms).symm
    · intro same
      rw [each, each, same t read]

/-- A suggestion is carried on without a term that is read, or it is gone. -/
lemma Reads.onward (h : Reads g typed f) :
    (∃ c : Change, Unread c.effects ∧ ∀ r, f r = c.carrying r) ∨
      ∀ r, (f r).editor.carried = none := by
  cases h with
  | keeps c each unread => exact .inl ⟨c, unread, each⟩
  | drops c each _ gone => exact .inr fun r => by rw [each]; exact gone
  | takes t next each _ gone => exact .inr fun r => by rw [each]; exact gone _

/-- Two suggestions with which the same is read are both carried on, or nothing is left of either.
-/
lemma Reads.merge {r r' : Option Term} (h : Reads g typed f)
    (same : ∀ t, taken? (f none).effects = some t → t.takeUp g typed r = t.takeUp g typed r') :
    (∃ c : Change, ∀ x, f x = c.carrying x) ∨ (f r).editor.carried = none ∧ f r' = f r := by
  cases h with
  | keeps c each => exact .inl ⟨c, each⟩
  | drops c each _ gone =>
    rw [each, each]
    exact .inr ⟨gone, rfl⟩
  | takes t next each taken gone =>
    have read : taken? (f none).effects = some t := by rw [each]; exact taken t
    rw [each, each, same t read]
    exact .inr ⟨gone _, rfl⟩

/-- A message more is spared if it reads no term or reads it elsewhere. -/
lemma spared_snoc {slot : Slot} {before : List Message} {m : Message} :
    e.Spared slot (before ++ [m]) ↔
      e.Spared slot before ∧ (((e.run before).takes? m).isSome → e.Elsewhere slot before m) := by
  constructor
  · intro spared
    exact ⟨fun earlier m' first => spared earlier m' (first.trans (List.prefix_append before [m])),
      spared before m (List.prefix_refl _)⟩
  · rintro ⟨spared, last⟩ earlier m' first
    rcases List.prefix_concat_iff.mp first with whole | first
    · obtain ⟨rfl, same⟩ := List.append_inj' whole rfl
      cases same
      exact last
    · exact spared earlier m' first

section Strokes

variable {slot : Slot} {s : Term} {other : Option Term} {m : Message}
  {strokes before : List Message}
  (editing : ∀ m ∈ strokes, m.scope ≠ .suggesting ∧ ∀ text, m ≠ .insertText text)
  (held : e.carried = some s)

lemma run_snoc (e : Editor) (before : List Message) (m : Message) :
    e.run (before ++ [m]) = ((e.run before).respond m).editor :=
  run_append e before [m]

include editing

/-- What a stroke reads while a suggestion is carried. -/
lemma reads_stroke (h : before ++ [m] <+: strokes) (e : Editor) :
    Reads e.grammar (e.isTyped (e.source m)) fun r => (e.carrying r).respond m := by
  obtain ⟨other, single⟩ := editing m (h.mem (List.mem_append_right before List.mem_cons_self))
  exact reads_respond other single e

/-- Where no suggestion is carried, none comes. -/
lemma gone_stroke (h : before ++ [m] <+: strokes) (gone : (e.run before).carried = none) :
    (e.run (before ++ [m])).carried = none := by
  have read := (reads_stroke editing h (e.run before)).gone
  rw [carrying_self gone] at read
  rw [run_snoc]
  exact read

include held

/-- As long as the suggestion is carried, no term is read, and with another one everything would be
the same but for what is carried. -/
lemma lockstep (h : before <+: strokes) :
    (∃ base : Editor, e.run before = base.carrying (some s) ∧
        (e.carrying other).run before = base.carrying other ∧ e.Spared slot before) ∨
      (e.run before).carried = none := by
  induction before using List.reverseRecOn with
  | nil =>
    refine .inl ⟨e, (carrying_self held).symm, rfl, fun before m h => ?_⟩
    cases before <;> cases List.prefix_nil.mp h
  | append_singleton before m ih =>
    rcases ih ((List.prefix_append before [m]).trans h) with ⟨base, own, along, spared⟩ | gone
    · rw [run_snoc, run_snoc, own, along, spared_snoc]
      rcases (reads_stroke editing h base).onward with ⟨c, unread, each⟩ | gone
      · have untaken : (e.run before).takes? m = none := by
          rw [own, takes?, each]
          exact unread.taken?
        refine .inl ⟨c.editor, by rw [each]; rfl, by rw [each]; rfl, spared, fun taken => ?_⟩
        rw [untaken] at taken
        cases taken
      · exact .inr (gone _)
    · exact .inr (gone_stroke editing h gone)

/-- If a suggestion makes no difference where another slot is read, then it makes none at all until
its own slot is read. -/
lemma together (h : before <+: strokes) (spared : e.Spared slot before)
    (same : ∀ before m, before ++ [m] <+: strokes → (e.run before).carried = some s →
      e.Elsewhere slot before m → (e.run before).ReadsSame (some s) other m) :
    (∃ base : Editor, e.run before = base.carrying (some s) ∧
        (e.carrying other).run before = base.carrying other) ∨
      (e.run before).carried = none ∧ (e.carrying other).run before = e.run before := by
  induction before using List.reverseRecOn with
  | nil => exact .inl ⟨e, (carrying_self held).symm, rfl⟩
  | append_singleton before m ih =>
    obtain ⟨spared, elsewhere⟩ := spared_snoc.mp spared
    have start := (List.prefix_append before [m]).trans h
    rcases ih start spared with ⟨base, own, along⟩ | ⟨gone, equal⟩
    · have reads := reads_stroke editing h base
      -- A term that is read is read from another slot, so it is the same with either suggestion.
      have agree : base.ReadsSame (some s) other m := fun t read => by
        have taken : ((e.run before).takes? m).isSome := by
          rw [own, takes?, reads.taken, Option.isSome_map]
          exact Option.isSome_of_eq_some read
        have agree := same before m h (congrArg Editor.carried own) (elsewhere taken)
        rw [own] at agree
        exact agree t read
      rw [run_snoc, run_snoc, own, along]
      rcases reads.merge agree with ⟨c, each⟩ | ⟨gone, equal⟩
      · exact .inl ⟨c.editor, by rw [each]; rfl, by rw [each]; rfl⟩
      · exact .inr ⟨gone, congrArg Change.editor equal⟩
    · right
      refine ⟨gone_stroke editing h gone, ?_⟩
      rw [run_snoc, run_snoc, equal]

/-- A suggestion is confined to its slot just if it makes no difference to what is read from another
one as long as it is carried. -/
lemma confined_iff :
    Confined slot e (e.carrying other) strokes ↔
      ∀ before m, before ++ [m] <+: strokes → (e.run before).carried = some s →
        e.Elsewhere slot before m → (e.run before).ReadsSame (some s) other m := by
  have start : ∀ before m, before ++ [m] <+: strokes → before <+: strokes := fun before m h =>
    (List.prefix_append before [m]).trans h
  constructor
  · intro confined before m h still elsewhere
    have step : (∃ base : Editor, e.run before = base.carrying (some s) ∧
        (e.carrying other).run before = base.carrying other ∧ e.Spared slot before) ∨
        (e.run before).carried = none :=
      lockstep editing held (start before m h)
    rcases step with ⟨base, own, along, spared⟩ | gone
    · have agree := confined before m h spared elsewhere
      rw [own, along] at agree
      rw [own]
      exact ((reads_stroke editing h base).same_iff (some s) other).mp agree
    · cases gone.symm.trans still
  · intro same before m h spared elsewhere
    rcases together editing held (start before m h) spared same with
      ⟨base, own, along⟩ | ⟨_, equal⟩
    · have agree := same before m h (congrArg Editor.carried own) elsewhere
      rw [own] at agree
      rw [own, along]
      exact ((reads_stroke editing h base).same_iff (some s) other).mpr agree
    · rw [equal]

end Strokes

/-- A suggestion is not followed by anything but a commit. -/
lemma eq_of_followUp {slot : Slot} {data : Suggestion} {m stroke : Message}
    (suggests : m = .suggestion slot data ∨ m = .completion slot data) (h : stroke ∈ m.followUp) :
    stroke = .exchange := by
  rcases suggests with rfl | rfl
  · cases h
  · cases slot with
    | input => exact List.mem_singleton.mp h
    | term index => cases h

/-- The strokes of messages that suggest nothing. -/
lemma editing_strokes {messages : List Message} (editing : ∀ m ∈ messages, m.scope ≠ .suggesting) :
    ∀ m ∈ messages.flatMap Message.strokes,
      m.scope ≠ .suggesting ∧ ∀ text, m ≠ .insertText text := by
  intro stroke mem
  obtain ⟨message, here, mem⟩ := List.mem_flatMap.mp mem
  refine ⟨?_, ne_insertText_of_strokes mem⟩
  rw [scope_of_strokes mem]
  exact editing message here

/-- Writing a suggestion and what follows it are two steps. -/
lemma run_suggestion {slot : Slot} {data : Suggestion} {m : Message} {c : Change}
    (suggests : m = .suggestion slot data ∨ m = .completion slot data)
    (written : e.writeSuggestion? slot data = some c) :
    (e.respond m).editor = c.editor.run m.followUp := by
  rcases suggests with rfl | rfl
  · simp only [respond, suggest, written]
    rfl
  · simp only [respond, complete, written]
    cases slot <;> rfl

lemma carried_written {slot : Slot} {data : Suggestion} {c : Change}
    (written : e.writeSuggestion? slot data = some c) : c.editor.carried = some data.toTerm := by
  obtain ⟨e', _, rfl⟩ := Option.map_eq_some_iff.mp written
  rfl

/-- A suggestion is carried until a term is read, whichever slot that is from, and has no say in
anything before. So it is confined to the slot that it was written into just if no other slot is
read first with the label of the suggestion, or the suggestion adds nothing to it. -/
theorem suggestion_confined_iff {slot : Slot} {data : Suggestion} {m : Message} {c : Change}
    (suggests : m = .suggestion slot data ∨ m = .completion slot data)
    (written : e.writeSuggestion? slot data = some c) {messages : List Message}
    (editing : ∀ m ∈ messages, m.scope ≠ .suggesting) (other : Option Term) :
    let start := c.editor
    let strokes := m.followUp ++ messages.flatMap Message.strokes
    e.run (m :: messages) = start.run strokes ∧
      (∀ before, before <+: strokes → (start.run before).carried = none ∨
        (start.run before).carried = some data.toTerm ∧ start.Spared slot before ∧
          (start.carrying other).run before = (start.run before).carrying other) ∧
      (Confined slot start (start.carrying other) strokes ↔
        ∀ before m, before ++ [m] <+: strokes →
          (start.run before).carried = some data.toTerm → start.Elsewhere slot before m →
          (start.run before).ReadsSame (some data.toTerm) other m) := by
  intro start strokes
  have single : ∀ m ∈ strokes, m.scope ≠ .suggesting ∧ ∀ text, m ≠ .insertText text := by
    intro stroke mem
    rcases List.mem_append.mp mem with follows | mem
    · rw [eq_of_followUp suggests follows]
      exact ⟨nofun, nofun⟩
    · exact editing_strokes editing stroke mem
  have held : start.carried = some data.toTerm := carried_written written
  refine ⟨?_, fun before h => ?_, confined_iff single held⟩
  · have first : e.run (m :: messages) = (e.respond m).editor.run messages := rfl
    rw [first, run_suggestion suggests written, run_append, run_strokes]
  · rcases lockstep single held h with ⟨base, own, along, spared⟩ | gone
    · rw [own, along]
      exact .inr ⟨rfl, spared, rfl⟩
    · exact .inl gone

/-- The editor for a filter, with the focus on its column. -/
def onColumn : Editor :=
  (ofTree {} (.condition ⟨['a'], ['='], .text ['v'], none⟩)).run [.focused (.term 0)]

/-- A column with a search of its own. -/
def nickname : Suggestion :=
  .record [("termLabel".toList, ['b']), ("termSearch".toList, ['x'])]

/-- A suggestion for a column that is saved: another column of that name is as it is typed. -/
theorem suggestion_confined_saved :
    let messages : List Message := [.focused .input, .insertText ['&', 'b'], .exchange]
    ∃ c, onColumn.writeSuggestion? (.term 0) nickname = some c ∧
      (∀ m ∈ messages, m.scope ≠ .suggesting) ∧
      Confined (.term 0) c.editor (c.editor.carrying none) (messages.flatMap Message.strokes) ∧
      (c.editor.run messages).terms.terms.map (·.search) = [['x'], ['='], ['v'], ['&'], ['b']] := by
  intro messages
  have editing : ∀ m ∈ messages, m.scope ≠ .suggesting := by decide
  have written : onColumn.writeSuggestion? (.term 0) nickname = some _ := rfl
  refine ⟨_, written, editing, ?_, by decide⟩
  obtain ⟨_, lockstep, confined⟩ := suggestion_confined_iff (.inl rfl) written editing none
  -- The first message reads the slot of the suggestion, so that no other message finds it carried.
  refine confined.mpr fun before m h still elsewhere => ?_
  cases before with
  | nil =>
    obtain ⟨rfl, _⟩ := List.cons_prefix_cons.mp h
    exact (elsewhere rfl).elim
  | cons first rest =>
    rcases lockstep _ ((List.prefix_append _ [m]).trans h) with gone | ⟨_, spared, _⟩
    · cases gone.symm.trans still
    · obtain ⟨rfl, _⟩ := List.cons_prefix_cons.mp h
      have start : [] ++ [.focused .input] <+: .focused .input :: rest := List.prefix_append _ rest
      exact (spared [] _ start (by decide) rfl).elim

/-- A suggestion for a column that is deleted instead: a new column of that name takes it up. -/
theorem suggestion_confined_leaked :
    let messages : List Message :=
      [.deleteBackward, .focused .input, .insertText ['&', 'b'], .exchange]
    Reachable onColumn ∧ ∃ c, onColumn.writeSuggestion? (.term 0) nickname = some c ∧
      (∀ m ∈ messages, m.scope ≠ .suggesting) ∧
      ¬ Confined (.term 0) c.editor (c.editor.carrying none) (messages.flatMap Message.strokes) ∧
      (c.editor.run messages).terms.terms.map (·.search) = [['a'], ['='], ['v'], ['&'], ['x']] := by
  intro messages
  have editing : ∀ m ∈ messages, m.scope ≠ .suggesting := by decide
  refine ⟨⟨_, _, .ofTree _ _, rfl⟩, _, rfl, editing, fun confined => ?_, by decide⟩
  have same := (confined_iff (editing_strokes editing) rfl).mp confined
    [.deleteBackward, .focused .input, .insertChar '&', .insertChar 'b'] .exchange
    (List.prefix_refl _) rfl nofun _ rfl
  have differ : (Term.column ['b']).takeUp .filter false (some nickname.toTerm) ≠
      Term.column ['b'] := by
    decide
  exact differ same

end Editor
end FilterEditor
