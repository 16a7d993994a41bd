import FilterEditor.Proofs.Carried

/-!
# Editing a term slot

The same messages edit the trailing input and a term slot. In a term slot they come down to edits of a
line: the draft takes them as a line on its own would (`Message.onLine`), the preview may step on and the
draft is checked anew. Nothing else of the editor changes, and all that is shown and told is about that
slot, the preview and the focus.

`Drafts` says so of a change, with what the draft makes of it; it composes, so one lemma for each handler
gives every message and every message gives a run.
-/

namespace FilterEditor

/-- What an edit of the term slot at an index may show and tell. -/
inductive Effect.Concerns (index : Nat) : Effect → Prop
  | write (value : Text) : Concerns index (.writeValue (.term index) value)
  | mark (message : Option Text) : Concerns index (.setValidity (.term index) message)
  | report : Concerns index (.reportValidity (.term index))
  | preview (label : Option Text) : Concerns index (.showPreview label)
  /-- The line ends, and the focus is asked to move on. -/
  | move (slot : Slot) : Concerns index (.focus slot)
  | request {request : Request} (same : request.index = some index) :
      Concerns index (.notify (.complete request))

/-- Whether a message types into the slot in focus, moves in it, or commits or steps through the
preview. -/
def Message.isDrafting : Message → Bool
  | .exchange | .submit => false
  | message => message.isTyping

/-- What a message makes of a line that is edited on its own. -/
def Message.onLine (message : Message) (l : Line) : Line :=
  match message with
  | .insertChar c => (l.insertChar? c).getD l
  | .insertText text => text.foldl (fun l c => (l.insertChar? c).getD l) l
  | .confirmPreview => (l.insertChar? ' ').getD l
  | .deleteBackward => l.deleteBackward?.getD l
  | .deleteForward => l.deleteForward?.getD l
  | .moveCursor .left => l.moveLeft?.getD l
  | .moveCursor .right => l.moveRight?.getD l
  | .moveStart => l.moveStart
  | .moveEnd => l.moveEnd
  | _ => l

namespace Editor

variable {index : Nat} {e : Editor} {c : Change} {f g : Line → Line} {step : Editor → Change}

/-- A change that edits the draft of the term slot at an index, and that slot only. -/
structure Drafts (index : Nat) (f : Line → Line) (e : Editor) (c : Change) : Prop where
  rest : ∃ preview validity, c.editor = { e with draft := e.draft.map f, preview, validity }
  effects : ∀ effect ∈ c.effects, effect.Concerns index

namespace Drafts

lemma focus (h : Drafts index f e c) : c.editor.focus = e.focus := by
  obtain ⟨_, _, eq⟩ := h.rest
  rw [eq]

lemma andThen (h : Drafts index f e c) (h' : Drafts index g c.editor (step c.editor)) :
    Drafts index (g ∘ f) e (c.andThen step) := by
  constructor
  · obtain ⟨_, _, first⟩ := h.rest
    obtain ⟨preview, validity, last⟩ := h'.rest
    refine ⟨preview, validity, last.trans ?_⟩
    rw [first, Option.map_map]
  · intro effect mem
    rcases List.mem_append.mp mem with mem | mem
    · exact h.effects effect mem
    · exact h'.effects effect mem

/-- A change without a change of the draft. -/
lemma still {preview : Option Term} {validity : Option Text} {effects : List Effect}
    (concerns : ∀ effect ∈ effects, effect.Concerns index) :
    Drafts index id e ⟨{ e with preview, validity }, effects⟩ := by
  refine ⟨⟨preview, validity, ?_⟩, concerns⟩
  rw [Option.map_id, id]

lemma unchanged (e : Editor) : Drafts index id e e.unchanged := still nofun

end Drafts

/-! ## Edits of the line -/

/-- An edit of the draft is an edit of that line, which may turn it down. -/
lemma edit_draft (index : Nat) (change : Line → Option Line) (e : Editor) :
    (e.edit? (.term index) change).getD e =
      { e with draft := e.draft.map fun l => (change l).getD l } := by
  cases held : e.draft with
  | none =>
    simp only [edit?, line?, held, Option.bind_none, Option.map_none, Option.getD_none]
    rw [← held]
  | some l =>
    cases changed : change l with
    | none =>
      simp only [edit?, line?, held, Option.bind_some, changed, Option.map_none, Option.getD_none,
        Option.map_some]
      rw [← held]
    | some l' =>
      simp only [edit?, line?, held, Option.bind_some, changed, Option.map_some, Option.getD_some,
        withLine]

lemma concerns_request (index : Nat) (label : Text) (e : Editor) :
    ∀ effect ∈ e.requestEffects (.term index) label, effect.Concerns index := by
  intro effect mem
  unfold requestEffects at mem
  split at mem
  · cases List.mem_singleton.mp mem
    exact .request rfl
  · cases mem

lemma drafts_afterTermEdit (index : Nat) (e : Editor) :
    Drafts index id e (e.afterTermEdit (.term index)) := by
  unfold afterTermEdit
  dsimp only
  split
  · apply Drafts.still
    intro effect mem
    rcases List.mem_cons.mp mem with rfl | mem
    · exact .mark _
    · cases List.mem_singleton.mp mem
      exact .report
  · apply Drafts.still
    intro effect mem
    rcases List.mem_cons.mp mem with rfl | mem
    · exact .mark _
    · exact concerns_request index _ _ effect mem

lemma drafts_editSlot (index : Nat) (change : Line → Option Line) (e : Editor) :
    Drafts index (fun l => (change l).getD l) e (e.editSlot (.term index) change) := by
  have edited := edit_draft index change e
  unfold editSlot
  split
  · rename_i refused
    rw [refused, Option.getD_none] at edited
    exact ⟨⟨e.preview, e.validity, edited⟩, nofun⟩
  · rename_i e' accepted
    rw [accepted, Option.getD_some] at edited
    have written : Drafts index (fun l => (change l).getD l) e ⟨e', e'.writeEffects (.term index)⟩ := by
      refine ⟨⟨e.preview, e.validity, edited⟩, fun effect mem => ?_⟩
      cases List.mem_singleton.mp mem
      exact .write _
    exact written.andThen (drafts_afterTermEdit index e')

lemma drafts_insertChar (index : Nat) (c : Char) (e : Editor) :
    Drafts index (Message.insertChar c).onLine e (e.insertChar (.term index) c) := by
  rw [insertChar_term]
  exact drafts_editSlot index _ e

/-- A text is typed character by character, each into the slot in focus, which stays the same. -/
lemma drafts_insertText (text : Text) (focus : e.focus = .term index) :
    Drafts index (Message.insertText text).onLine e (e.insertText text) := by
  suffices key : ∀ (f : Line → Line) (c : Change), Drafts index f e c →
      Drafts index (fun l => text.foldl (fun l c => (l.insertChar? c).getD l) (f l)) e
        (text.foldl (fun change c => change.andThen fun e => e.insertChar e.focus c) c) from
    key id _ (.unchanged e)
  induction text with
  | nil => exact fun _ _ h => h
  | cons x rest ih =>
    intro f c h
    have typed : Drafts index (Message.insertChar x).onLine c.editor
        (c.editor.insertChar c.editor.focus x) := by
      rw [h.focus, focus]
      exact drafts_insertChar index x c.editor
    exact ih _ _ (h.andThen typed)

/-! ## Moves -/

lemma drafts_cyclePreview (index : Nat) (direction : Direction) (e : Editor) :
    Drafts index id e (e.cyclePreview direction) := by
  unfold cyclePreview
  dsimp only
  split
  · exact .unchanged e
  · apply Drafts.still
    intro effect mem
    cases List.mem_singleton.mp mem
    exact .preview _

lemma drafts_moveInSlot (index : Nat) (change : Line → Option Line) (e : Editor) :
    Drafts index (fun l => (change l).getD l) e (e.moveInSlot (.term index) change).unchanged :=
  ⟨⟨e.preview, e.validity, edit_draft index change e⟩, nofun⟩

/-- At the end of the line it is the focus that is asked to move: the cursor could not. -/
lemma drafts_moveSideways {atEdge : Line → Bool} {move : Line → Option Line}
    (edge : ∀ l, atEdge l → move l = none) (target : Editor → Option Slot) (index : Nat)
    (e : Editor) :
    Drafts index (fun l => (move l).getD l) e (e.moveSideways (.term index) atEdge move target) := by
  have same : e.moveSideways (.term index) atEdge move target =
      if e.draft.any atEdge && e.hasTerms then ⟨e, focusEffects (target e)⟩
      else (e.moveInSlot (.term index) move).unchanged := rfl
  rw [same]
  split
  · rename_i leaves
    constructor
    · refine ⟨e.preview, e.validity, ?_⟩
      cases held : e.draft with
      | none =>
        rw [Option.map_none]
        exact held ▸ rfl
      | some l =>
        rw [held, Option.any_some, Bool.and_eq_true] at leaves
        rw [Option.map_some, edge l leaves.1]
        exact held ▸ rfl
    · intro effect mem
      obtain ⟨slot, _, rfl⟩ := List.mem_map.mp mem
      exact .move slot
  · exact drafts_moveInSlot index move e

lemma drafts_moveCursor (index : Nat) (direction : Direction) (e : Editor) :
    Drafts index (Message.moveCursor direction).onLine e (e.moveCursor (.term index) direction) := by
  cases direction with
  | up => exact drafts_cyclePreview index .up e
  | down => exact drafts_cyclePreview index .down e
  | left =>
    refine drafts_moveSideways (fun l edge => ?_) previousSlot? index e
    exact if_pos (eq_of_beq edge)
  | right =>
    refine drafts_moveSideways (fun l edge => ?_) nextSlot? index e
    exact if_pos edge

/-! ## Messages -/

/-- In a term slot, a message that edits does to the draft what it does to a line, and nothing else. -/
lemma drafts_respond {m : Message} (focus : e.focus = .term index) (drafting : m.isDrafting) :
    Drafts index m.onLine e (e.respond m) := by
  cases m with
  | insertText text => exact drafts_insertText text focus
  | cyclePreview direction => exact drafts_cyclePreview index direction e
  | insertChar c =>
    rw [respond, focus]
    exact drafts_insertChar index c e
  | deleteBackward =>
    rw [respond, focus]
    exact drafts_editSlot index _ e
  | deleteForward =>
    rw [respond, focus]
    exact drafts_editSlot index _ e
  | moveCursor direction =>
    rw [respond, focus]
    exact drafts_moveCursor index direction e
  | moveStart =>
    rw [respond, focus]
    exact drafts_moveInSlot index (fun line => some line.moveStart) e
  | moveEnd =>
    rw [respond, focus]
    exact drafts_moveInSlot index (fun line => some line.moveEnd) e
  | confirmPreview =>
    rw [respond, focus]
    exact drafts_editSlot index (Line.insertChar? ' ') e
  | commitPreview =>
    rw [respond, focus]
    exact .unchanged e
  | _ => cases drafting

/-- Whatever is edited in a term slot, its draft takes the edits as a line on its own would, and of the
rest only the preview and the message of the draft may change: the terms and their search string, the
expected kind, the trailing input, the selection, the focus and the carried suggestion stay. All that is
shown and told is the text and the message of that slot, the preview, a move of the focus or a request to
continue the slot. -/
theorem drafting_spares_rest {messages : List Message} (focus : e.focus = .term index)
    (drafting : ∀ m ∈ messages, m.isDrafting) :
    (∃ preview validity, e.run messages =
      { e with
        draft := e.draft.map fun l => messages.foldl (fun l m => m.onLine l) l
        preview
        validity }) ∧
      ∀ effect ∈ e.produced messages, effect.Concerns index := by
  suffices whole : Drafts index (fun l => messages.foldl (fun l m => m.onLine l) l) e
      ⟨e.run messages, e.produced messages⟩ from ⟨whole.rest, whole.effects⟩
  induction messages generalizing e with
  | nil => exact .unchanged e
  | cons m rest ih =>
    let onward (e : Editor) : Change := ⟨e.run rest, e.produced rest⟩
    have first := drafts_respond focus (drafting m List.mem_cons_self)
    have later : Drafts index (fun l => rest.foldl (fun l m => m.onLine l) l)
        (e.respond m).editor (onward (e.respond m).editor) :=
      ih (first.focus.trans focus) fun m' mem => drafting m' (List.mem_cons_of_mem _ mem)
    exact first.andThen later

/-- A value is changed in its slot, while the preview behind the trailing input steps on; the cursor
leaves the line at its end. -/
theorem drafting_spares_rest_value :
    let e := (ofTree {} (.condition ⟨['a'], ['='], .text ['v'], none⟩)).run [.focused (.term 2)]
    let messages : List Message := [.insertText ['x', '\n', ' '], .moveCursor .left, .deleteBackward,
      .confirmPreview, .commitPreview, .cyclePreview .down, .moveEnd, .moveCursor .right]
    e.focus = .term 2 ∧ (∀ m ∈ messages, m.isDrafting) ∧
      (e.run messages).terms = e.terms ∧ (e.run messages).input = e.input ∧
      (e.run messages).draft = some ⟨['v', ' ', ' '], 3⟩ ∧
      (∀ effect ∈ e.produced messages, effect.Concerns 2) ∧
      .showPreview (some ['|']) ∈ e.produced messages ∧ .focus .input ∈ e.produced messages := by
  intro e messages
  have focus : e.focus = .term 2 := rfl
  have drafting : ∀ m ∈ messages, m.isDrafting := List.all_eq_true.mp rfl
  obtain ⟨⟨_, _, eq⟩, concerns⟩ := drafting_spares_rest focus drafting
  refine ⟨focus, drafting, ?_, ?_, ?_, concerns, by decide, by decide⟩
  · rw [eq]
  · rw [eq]
  · rw [eq]
    rfl

end Editor
end FilterEditor
