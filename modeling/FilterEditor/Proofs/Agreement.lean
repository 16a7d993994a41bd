import FilterEditor.Proofs.Pointing

/-!
# Agreement on the focus

The display gets the focus first and the editor follows, unless an invalid draft keeps the focus and
claims it back. In between they disagree, but then a move that ends this waits in the queue: the session
is `Agreeing`, and once nothing waits, the display and the editor have the same slot in focus.

Two kinds of messages upset this. A refresh takes the focus of the editor back to the trailing input
and leaves that of the display on a term. And while a draft claims the focus back, its claim names the
slot by index, so a removal of terms may leave it without a slot (`disagrees_when_idle`).
`Poised.dispatch_iff` says that nothing else does, and `not_agrees_settle` that a session that is
upset stays so; `agrees_when_idle` is what this comes to in a run.
-/

namespace FilterEditor.Session

/-- No slot has the focus on the display, or the one that has it in the editor. -/
def Agrees (s : Session) : Prop :=
  s.display.focused = none ∨ s.display.focused = s.handle? s.editor.focus

/-- One of the effects moves the focus to a slot that is shown. -/
def Moves (s : Session) (effects : List Effect) : Prop :=
  ∃ slot, .focus slot ∈ effects ∧ (s.handle? slot).isSome

/-- The display and the editor agree on the focus, or one of the effects that are due or wait moves
it. -/
def Agreeing (s : Session) (due : List Effect) : Prop := s.Agrees ∨ s.Moves (due ++ s.queue)

/-- A message that leaves the display and the editor in disagreement for good: a refresh while a term
has the focus on the display, or any other message while they disagree, if they still do after it and
none of the moves that waited finds its slot any more. -/
def Upsets (s : Session) : Message → Prop
  | .refresh => (∃ handle ∈ s.handles, s.display.focused = some handle) ∧ ¬ s.Moves s.queue
  | .load _ | .reset => False
  | message =>
    ¬ s.Agrees ∧ ¬ (s.dispatch message).Agrees ∧ ¬ (s.dispatch message).Moves s.queue

/-- A session on blank displays that moves the focus itself, and nothing upsets it. Keys and texts are
messages one after the other, and settling is turns. -/
inductive Undisturbed : Session → Prop
  | start {e : Editor} {d : Display} (keymap : Keymap) (reachable : e.Reachable) (blank : d.Blank)
      (nowhere : d.focused = none) : Undisturbed (start e d keymap)
  | dispatch {s : Session} {message : Message} (before : Undisturbed s)
      (inside : ∀ slot, message ≠ .focused slot) (calm : ¬ s.Upsets message) :
      Undisturbed (s.dispatch message)
  | load {s s' : Session} {payload : Payload} (before : Undisturbed s)
      (loaded : s.load payload = .ok s') : Undisturbed s'
  | turn {s : Session} (before : Undisturbed s) : Undisturbed s.turn.2
  | refresh {s : Session} {d : Display} (before : Undisturbed s) (blank : d.Blank)
      (nowhere : d.focused = none) : Undisturbed (s.refresh d).2

/-- What holds of an undisturbed session, with the effects that are still due in the same turn. -/
structure Poised (s : Session) (due : List Effect) : Prop where
  inStep : s.InStep
  sited : ∃ slot, s.Sited slot
  agreeing : s.Agreeing due

variable {s s' : Session} {slot : Option Slot} {message : Message} {payload : Payload}

/-! ## Slots in focus -/

lemma InStep.length (h : s.InStep) : s.handles.length = s.editor.terms.length :=
  h.lockstep.handles_length

/-- A slot is shown just if it is the trailing input or that of a term. -/
lemma InStep.shown_iff (h : s.InStep) (slot : Slot) :
    (s.handle? slot).isSome ↔ ∀ index, slot = .term index → index < s.editor.terms.length := by
  cases slot with
  | input => exact ⟨fun _ => nofun, fun _ => rfl⟩
  | term index =>
    have shown : (s.handle? (.term index)).isSome ↔ index < s.handles.length := by
      simp [handle?]
    rw [shown, h.length]
    constructor
    · rintro lt _ ⟨⟩
      exact lt
    · exact fun lt => lt index rfl

lemma InStep.focus_shown (h : s.InStep) : (s.handle? s.editor.focus).isSome :=
  (h.shown_iff _).mpr fun index focus => (h.sound.focus.term index focus).1

/-- The display and the editor agree if it points to the focus of the editor or nowhere. -/
lemma agrees_of_sited (h : s.Sited slot)
    (same : ∀ target, slot = some target → target = s.editor.focus) : s.Agrees := by
  cases h.points with
  | nowhere nothing => exact .inl nothing
  | @slot target handle shown focused =>
    cases same target rfl
    exact .inr (focused.trans shown.symm)

lemma Agrees.sited (h : s.Agrees) (inStep : s.InStep) (sited : s.Sited slot) :
    ∃ slot, s.Sited slot ∧ ∀ target, slot = some target → target = s.editor.focus := by
  rcases h with nothing | same
  · exact ⟨none, ⟨sited.bare, sited.terms, .nowhere nothing⟩, nofun⟩
  · obtain ⟨handle, shown⟩ := Option.isSome_iff_exists.mp inStep.focus_shown
    refine ⟨some s.editor.focus, ⟨sited.bare, sited.terms, .slot shown (same.trans shown)⟩, ?_⟩
    rintro _ ⟨⟩
    rfl

/-! ## Editing -/

/-- Where the focus of the editor goes along with its slot, agreement is kept. -/
lemma agrees_dispatch (h : s.Poised []) (agrees : s.Agrees) (editing : message.scope ≠ .loading)
    (follows : (s.editor.respond message).editor.focus =
      (Slot.follow (some s.editor.focus) (s.editor.respond message).effects).getD .input) :
    (s.dispatch message).Agrees := by
  obtain ⟨_, sited⟩ := h.sited
  obtain ⟨slot, sited, same⟩ := agrees.sited h.inStep sited
  have after := sited_dispatch h.inStep.running h.inStep.aligned editing sited
  have editor := (dispatch_queue h.inStep.running editing).2.1
  refine agrees_of_sited after fun target moved => ?_
  rw [editor, follows]
  cases slot with
  | none =>
    rw [Slot.follow_none] at moved
    cases moved
  | some slot =>
    cases same slot rfl
    rw [moved]
    rfl

/-- A move that waited before a message and finds its slot still waits. -/
lemma agreeing_dispatch (h : s.InStep) (editing : message.scope ≠ .loading)
    (moves : (s.dispatch message).Moves s.queue) : (s.dispatch message).Agreeing [] := by
  obtain ⟨slot, waits, shown⟩ := moves
  refine .inr ⟨slot, ?_, shown⟩
  rw [List.nil_append, (dispatch_queue h.running editing).1]
  exact List.mem_append_left _ waits

/-- Whatever a message does, all but agreement is kept. -/
lemma Poised.dispatch_iff_agreeing (h : s.Poised []) (editing : message.scope ≠ .loading) :
    (s.dispatch message).Poised [] ↔ (s.dispatch message).Agreeing [] := by
  obtain ⟨slot, sited⟩ := h.sited
  constructor
  · exact Poised.agreeing
  · exact fun agreeing => ⟨h.inStep.dispatch editing,
      ⟨_, sited_dispatch h.inStep.running h.inStep.aligned editing sited⟩, agreeing⟩

/-- A message that leaves the slots, or asks for no move of the focus, upsets a session just if they
still disagree after it and no move that waited finds its slot any more. -/
lemma Poised.answered_iff (h : s.Poised []) (editing : message.scope ≠ .loading)
    (answer : s.editor.Motion (s.editor.respond message) ∨
      s.editor.Escorts (s.editor.respond message)) :
    (s.dispatch message).Poised [] ↔
      ¬ (¬ s.Agrees ∧ ¬ (s.dispatch message).Agrees ∧ ¬ (s.dispatch message).Moves s.queue) := by
  rw [h.dispatch_iff_agreeing editing]
  constructor
  · rintro (agrees | ⟨slot, mem, shown⟩) ⟨disagrees, disagrees', lost⟩
    · exact disagrees' agrees
    rcases answer with motion | escorts
    · have stays := stays_dispatch editing motion.still
      rcases h.agreeing with agrees | ⟨slot, mem, shown⟩
      · exact disagrees agrees
      · exact lost ⟨slot, mem, (handle?_congr stays.handles slot).symm ▸ shown⟩
    · rw [List.nil_append, (dispatch_queue h.inStep.running editing).1] at mem
      rcases List.mem_append.mp mem with mem | mem
      · exact lost ⟨slot, mem, shown⟩
      · exact List.any_eq_false.mp escorts.unmoved _ (List.mem_of_mem_filter mem) rfl
  · intro calm
    have follows : (s.editor.respond message).editor.focus =
        (Slot.follow (some s.editor.focus) (s.editor.respond message).effects).getD .input := by
      rcases answer with motion | escorts
      · exact motion.follows
      · exact escorts.focus
    by_cases agrees : s.Agrees
    · exact .inl (agrees_dispatch h agrees editing follows)
    by_cases agrees' : (s.dispatch message).Agrees
    · exact .inl agrees'
    · exact agreeing_dispatch h.inStep editing (by_contra fun lost => calm ⟨agrees, agrees', lost⟩)

/-! ## Restoring -/

/-- Removing all slots takes the focus off the terms. -/
lemma follow_removals {n : Nat} (within : ∀ index, slot = some (.term index) → index < n)
    (target : Slot) :
    Slot.follow slot ((List.range n).reverse.map .removeSlot) = some target → target = .input := by
  induction n generalizing slot with
  | zero =>
    rintro rfl
    cases target with
    | input => rfl
    | term index => exact (Nat.not_lt_zero index (within index rfl)).elim
  | succ n ih =>
    rw [List.range_succ, List.reverse_concat, List.map_cons, Slot.follow_cons]
    refine ih fun index moved => ?_
    obtain ⟨old, eq, after⟩ := Option.bind_eq_some_iff.mp moved
    cases old with
    | input => cases after
    | term i =>
      have lt : i < n + 1 := within i eq
      dsimp only [Slot.after] at after
      split at after
      · cases after
      · cases after
        unfold Editor.shiftIndex
        split <;> omega

/-- What is shown anew when terms are restored happens at once and moves no slot. -/
lemma quiet_restored (e : Editor) : ∀ effect ∈ e.renderEffects ++ e.settledEffects,
    effect.isDeferred = false ∧ ∀ slot : Slot, slot.after effect = some slot := by
  intro effect mem
  rcases List.mem_append.mp mem with mem | mem
  · obtain ⟨_, _, rfl⟩ := List.mem_mapIdx.mp mem
    exact ⟨rfl, fun _ => rfl⟩
  · simp only [Editor.settledEffects, Editor.previewEffects, Editor.placeholderEffects,
      List.cons_append, List.nil_append, List.mem_cons, List.not_mem_nil, or_false] at mem
    rcases mem with rfl | rfl | rfl | rfl <;> exact ⟨rfl, fun _ => rfl⟩

lemma follow_restored (slot : Option Slot) (e : Editor) :
    Slot.follow slot (e.renderEffects ++ e.settledEffects) = slot :=
  Slot.follow_still fun effect mem => (quiet_restored e effect mem).2

lemma respond_refresh (e : Editor) : (e.respond .refresh).effects =
    (e.restore e.terms.terms).renderEffects ++ (e.restore e.terms.terms).settledEffects :=
  rfl

/-- Restoring terms leaves the focus of the editor on the trailing input and that of the display there
or nowhere. -/
lemma poised_restored {effects : List Effect}
    (inStep : (s.apply (Command.ofEffects effects)).InStep) (aligned : s.Aligned)
    (sited : s.Sited slot) (focus : s.editor.focus = .input)
    (cleared : ∀ target, Slot.follow slot effects = some target → target = .input) :
    (s.apply (Command.ofEffects effects)).Poised [] := by
  have after := sited_apply effects aligned sited
  refine ⟨inStep, ⟨_, after⟩, .inl (agrees_of_sited after fun target moved => ?_)⟩
  rw [apply_editor, focus]
  exact cleared target moved

lemma Sited.within (h : s.Sited slot) (index : Nat) (eq : slot = some (.term index)) :
    index < s.handles.length := by
  subst eq
  cases h.points with
  | slot shown => exact (List.getElem?_eq_some_iff.mp shown).1

lemma Poised.cleared (h : s.Poised []) (sited : s.Sited slot) (terms : List Term) (target : Slot) :
    Slot.follow slot (s.editor.removalEffects ++
      ((s.editor.restore terms).renderEffects ++ (s.editor.restore terms).settledEffects)) =
        some target → target = .input := by
  rw [Slot.follow_append, follow_restored]
  apply follow_removals
  rw [← h.inStep.length]
  exact sited.within

lemma Poised.reset (h : s.Poised []) : (s.dispatch .reset).Poised [] := by
  obtain ⟨slot, sited⟩ := h.sited
  have editing : Message.reset.scope ≠ .loading := nofun
  have inStep := h.inStep.dispatch editing
  rw [dispatch_eq h.inStep.running editing] at inStep ⊢
  exact poised_restored inStep ⟨h.inStep.aligned.sound, h.inStep.aligned.handles⟩ (sited.edit _) rfl
    (h.cleared sited [])

/-- A refresh leaves the slots as they are. -/
lemma moves_refresh (h : s.InStep) (effects : List Effect) :
    (s.dispatch .refresh).Moves effects ↔ s.Moves effects := by
  have editing : Message.refresh.scope ≠ .loading := nofun
  have terms : (s.dispatch .refresh).editor.terms.length = s.editor.terms.length := by
    rw [(dispatch_queue h.running editing).2.1]
    rfl
  have shown : ∀ slot, ((s.dispatch .refresh).handle? slot).isSome ↔ (s.handle? slot).isSome := by
    intro slot
    rw [(h.dispatch editing).shown_iff, h.shown_iff, terms]
  exact exists_congr fun slot => and_congr_right' (shown slot)

/-- The focus of the display is where it was after a refresh. -/
lemma sited_refresh (h : s.InStep) (sited : s.Sited slot) : (s.dispatch .refresh).Sited slot := by
  have editing : Message.refresh.scope ≠ .loading := nofun
  have after := sited_dispatch h.running h.aligned editing sited
  rw [respond_refresh, follow_restored] at after
  exact after

/-- After a refresh, the editor has the trailing input in focus, and the display what it had before. -/
lemma Poised.refresh_iff (h : s.Poised []) :
    (s.dispatch .refresh).Poised [] ↔ ¬ s.Upsets .refresh := by
  obtain ⟨slot, sited⟩ := h.sited
  have editing : Message.refresh.scope ≠ .loading := nofun
  rw [h.dispatch_iff_agreeing editing]
  obtain ⟨queue, editor, _⟩ := dispatch_queue h.inStep.running editing
  have after := sited_refresh h.inStep sited
  have focus : (s.dispatch .refresh).editor.focus = .input := by
    rw [editor]
    rfl
  constructor
  · rintro agreeing ⟨⟨handle, mem, focused⟩, lost⟩
    rcases agreeing with agrees | moves
    · obtain ⟨index, shown⟩ := List.getElem?_of_mem mem
      have pointed : s.Sited (some (.term index)) := ⟨sited.bare, sited.terms, .slot shown focused⟩
      have after := sited_refresh h.inStep pointed
      cases after.points with
      | @slot _ found shown focused =>
        rcases agrees with nothing | same
        · cases nothing.symm.trans focused
        · rw [focused, focus] at same
          exact after.terms found (List.mem_of_getElem? shown) (Option.some.inj same)
    · have none : (s.editor.respond .refresh).effects.filter (·.isDeferred) = [] := by
        apply List.filter_eq_nil_iff.mpr
        intro effect mem
        rw [(quiet_restored _ effect mem).1]
        exact Bool.false_ne_true
      rw [List.nil_append, queue, none, List.append_nil] at moves
      exact lost ((moves_refresh h.inStep _).mp moves)
  · intro calm
    by_cases moves : s.Moves s.queue
    · exact agreeing_dispatch h.inStep editing ((moves_refresh h.inStep _).mpr moves)
    · left
      refine agrees_of_sited after ?_
      rintro target rfl
      rw [focus]
      cases sited.points with
      | @slot _ handle shown focused =>
        cases target with
        | input => rfl
        | term index => exact (calm ⟨⟨handle, List.mem_of_getElem? shown, focused⟩, moves⟩).elim

/-- The focus goes with the slots that are removed. -/
lemma focused_foldl_remove (stale : List Nat) (d : Display) :
    (stale.foldl (fun d handle => d.remove handle) d).focused =
      d.focused.filter (· ∉ stale) := by
  induction stale generalizing d with
  | nil =>
    rw [List.foldl_nil]
    cases d.focused <;> rfl
  | cons handle rest ih =>
    have removed : (d.remove handle).focused = d.focused.filter (· ≠ handle) := by
      have eq : (d.remove handle).focused = if d.focused = some handle then none else d.focused := rfl
      rw [eq]
      cases d.focused <;> simp [Option.filter]
    rw [List.foldl_cons, ih, removed, Option.filter_filter]
    congr 1
    funext other
    simp

/-- A session that takes over no slots shows none, so no term has the focus. -/
lemma sited_adopt (h : s.Sited slot) :
    ∃ slot, (s.adopt (some [])).Sited slot ∧ ∀ target, slot = some target → target = .input := by
  obtain ⟨_, removed⟩ := Display.foldl_remove (s.handles.filter (!List.contains [] ·)) s.display
  have bare : (s.adopt (some [])).display.rendered = [] :=
    (congrArg Display.rendered removed).trans h.bare
  have all : s.handles.filter (!List.contains [] ·) = s.handles :=
    List.filter_eq_self.mpr fun _ _ => rfl
  have focused : (s.adopt (some [])).display.focused = s.display.focused.filter (· ∉ s.handles) := by
    rw [← all]
    exact focused_foldl_remove _ s.display
  cases h.points with
  | nowhere nothing =>
    rw [nothing] at focused
    exact ⟨none, ⟨bare, nofun, .nowhere focused⟩, nofun⟩
  | @slot target handle shown at_handle =>
    cases target with
    | input =>
      cases shown
      have kept : Display.inputHandle ∉ s.handles := fun mem => h.terms _ mem rfl
      rw [at_handle, Option.filter_some, if_pos (decide_eq_true kept)] at focused
      refine ⟨some .input, ⟨bare, nofun, .slot rfl focused⟩, ?_⟩
      rintro _ ⟨⟩
      rfl
    | term index =>
      have gone : ¬ decide (handle ∉ s.handles) := by simpa using List.mem_of_getElem? shown
      rw [at_handle, Option.filter_some, if_neg gone] at focused
      exact ⟨none, ⟨bare, nofun, .nowhere focused⟩, nofun⟩

lemma Poised.load_terms (h : s.Poised []) (loaded : s.load payload = .ok s')
    (hidden : ∀ metas, payload ≠ .slots metas) : s'.Poised [] := by
  have truthful : s.Truthful payload := by
    cases payload with
    | slots metas => exact (hidden metas rfl).elim
    | _ => trivial
  have inStep := h.inStep.load truthful loaded
  obtain ⟨slot, sited⟩ := h.sited
  obtain ⟨terms, _, rfl⟩ := Session.load_terms h.inStep.running hidden loaded
  rw [List.append_assoc] at inStep ⊢
  exact poised_restored inStep ⟨h.inStep.aligned.sound, h.inStep.aligned.handles⟩
    (sited.edit _) rfl (h.cleared sited terms)

/-- The display showed nothing before the session came, so there are no slots to take over. -/
lemma Poised.load_slots {metas : List SlotMeta} (h : s.Poised [])
    (loaded : s.load (.slots metas) = .ok s') : s'.Poised [] := by
  obtain ⟨slot, sited⟩ := h.sited
  have none : s.display.prerendered = [] := by
    rw [Display.prerendered, sited.bare]
    rfl
  have handles : s.display.prerenderedHandles = [] := by
    rw [Display.prerenderedHandles, none]
    rfl
  obtain ⟨length, _, eq⟩ := Session.load_slots h.inStep.running loaded
  have empty : metas = [] := by
    rw [none] at length
    exact List.length_eq_zero_iff.mp length.symm
  subst empty
  have truthful : s.Truthful (.slots []) := by
    unfold Truthful
    rw [Display.prerenderedTerms, handles]
    rfl
  have covered : ∀ slot ∈ s.display.slots,
      slot.handle ∈ s.handles ∨ slot.handle ∈ s.display.prerenderedHandles := by
    intro slot mem
    left
    rw [← h.inStep.aligned.handles]
    exact List.mem_map_of_mem mem
  have inStep := h.inStep.load truthful loaded
  have aligned := (adopt_view (s := { s with editor := s.editor.restore [] })
    h.inStep.aligned.sound covered).1
  obtain ⟨slot, sited, input⟩ := sited_adopt (sited.edit (s.editor.restore []))
  rw [eq, handles] at inStep
  have aligned : Aligned (adopt (some []) _) := handles ▸ aligned
  rw [eq, handles]
  refine poised_restored inStep aligned sited rfl fun target moved => ?_
  have none : (s.editor.restore []).renderEffects = [] := rfl
  have followed := follow_restored slot (s.editor.restore [])
  rw [none, List.nil_append] at followed
  exact input target (followed.symm.trans moved)

lemma Poised.load (h : s.Poised []) (loaded : s.load payload = .ok s') : s'.Poised [] := by
  cases payload with
  | slots metas => exact h.load_slots loaded
  | _ => exact h.load_terms loaded nofun

/-- All that upsets a session are the messages that do. -/
lemma Poised.dispatch_iff (h : s.Poised []) (inside : ∀ slot, message ≠ .focused slot) :
    (s.dispatch message).Poised [] ↔ ¬ s.Upsets message := by
  cases message with
  | load payload =>
    refine iff_of_true ?_ not_false
    rw [dispatch_load h.inStep.running, act]
    cases loaded : s.load payload with
    | ok => exact h.load loaded
    | error => exact h
  | refresh => exact h.refresh_iff
  | reset => exact iff_of_true h.reset not_false
  | focused slot => exact (inside slot rfl).elim
  | moveCursor | moveStart | moveEnd | cyclePreview | forward | backward =>
    exact h.answered_iff (by rintro ⟨⟩) (.inl (Editor.motion_respond rfl _))
  | submit => exact h.answered_iff (by rintro ⟨⟩) (.inr (Editor.escorts_submit _))
  | _ => exact h.answered_iff (by rintro ⟨⟩) (.inr (Editor.keeps_respond rfl _).escorts)

/-! ## Turns -/

/-- Agreement depends on the slots, on both focuses and on the moves that are due or wait. -/
lemma agreeing_congr {due due' : List Effect} (handles : s'.handles = s.handles)
    (focused : s'.display.focused = s.display.focused) (editor : s'.editor = s.editor)
    (moves : ∀ slot, (s.handle? slot).isSome →
      (.focus slot ∈ due' ++ s'.queue ↔ .focus slot ∈ due ++ s.queue)) :
    s'.Agreeing due' ↔ s.Agreeing due := by
  unfold Agreeing Agrees Moves
  rw [focused, editor, handle?_congr handles]
  refine or_congr_right (exists_congr fun slot => ?_)
  rw [handle?_congr handles]
  constructor
  · rintro ⟨mem, shown⟩
    exact ⟨(moves slot shown).mp mem, shown⟩
  · rintro ⟨mem, shown⟩
    exact ⟨(moves slot shown).mpr mem, shown⟩

/-- Carrying out an effect that moves the focus to no slot shows nothing new. -/
lemma stays_perform {effect : Effect} (deferred : effect.isDeferred)
    (hidden : ∀ slot, effect = .focus slot → s.handle? slot = none) :
    Stays s (s.perform effect) ∧ (s.perform effect).editor = s.editor ∧
      (s.perform effect).queue = s.queue := by
  by_cases move : ∃ slot, effect = .focus slot
  · obtain ⟨slot, rfl⟩ := move
    rw [perform_hidden (hidden slot rfl)]
    exact ⟨.refl s, rfl, rfl⟩
  · have unmoved : ∀ slot, effect ≠ .focus slot := fun slot eq => move ⟨slot, eq⟩
    have still : effect.changesSlots = false := by
      cases effect <;> first | rfl | cases deferred
    have stays : Stays s (s.enact effect) := .enact still unmoved
    obtain ⟨_, _, eq⟩ := enact_eq s effect
    rw [perform_eq_enact unmoved]
    refine ⟨stays, ?_, ?_⟩ <;> rw [eq]

/-- An effect that moves the focus to no slot changes nothing about agreement. -/
lemma agreeing_perform_iff {effect : Effect} {due : List Effect} (deferred : effect.isDeferred)
    (hidden : ∀ slot, effect = .focus slot → s.handle? slot = none) :
    (s.perform effect).Agreeing due ↔ s.Agreeing (effect :: due) := by
  obtain ⟨stays, editor, queue⟩ := stays_perform deferred hidden
  refine agreeing_congr stays.handles stays.focused editor fun slot shown => ?_
  rw [queue, List.cons_append, List.mem_cons]
  constructor
  · exact .inr
  · rintro (eq | mem)
    · rw [hidden slot eq.symm] at shown
      cases shown
    · exact mem

/-- At the beginning of a turn, what waits becomes due. -/
lemma agreeing_due : Agreeing { s with queue := [] } s.queue ↔ s.Agreeing [] := by
  refine agreeing_congr rfl rfl rfl fun slot _ => ?_
  rw [List.append_nil, List.nil_append]

/-- Once a slot has the focus, the editor follows or claims the focus back. -/
lemma agreeing_focused {target : Slot} {due : List Effect} {handle : Nat} (h : s.InStep)
    (shown : s.handle? target = some handle) (focused : s.display.focused = some handle) :
    (s.dispatch (.focused target)).Agreeing due := by
  have stays := stays_focused target s
  have editing : (Message.focused target).scope ≠ .loading := nofun
  obtain ⟨queue, editor, _⟩ := dispatch_queue h.running editing
  have answer : s.editor.respond (.focused target) = s.editor.focused target := rfl
  rw [answer] at queue editor
  -- Wherever the editor is now, the slot is the one in focus on the display.
  have agrees : (s.dispatch (.focused target)).editor.focus = target →
      (s.dispatch (.focused target)).Agrees := by
    intro same
    right
    rw [stays.focused, focused, same, handle?_congr stays.handles, shown]
  have cases := Editor.focused_cases target s.editor
  generalize s.editor.focused target = c at cases queue editor
  cases cases with
  | stays reached =>
    rcases reached with same | past
    · exact .inl (agrees (editor ▸ same.symm))
    · exfalso
      cases target with
      | input => cases past
      | term index =>
        have within := (h.shown_iff _).mp (Option.isSome_iff_exists.mpr ⟨handle, shown⟩) index rfl
        have past : s.editor.terms.length ≤ index := by simpa [Slot.index?] using past
        exact Nat.not_lt_of_le past within
  | enters _ _ focus => exact .inl (agrees (editor ▸ focus))
  | refused =>
    right
    refine ⟨s.editor.focus, List.mem_append_right _ ?_, ?_⟩
    · rw [queue]
      apply List.mem_append_right
      simp [Editor.claimEffects, Effect.isDeferred]
    · rw [handle?_congr stays.handles]
      exact h.focus_shown

lemma Poised.perform {effect : Effect} {due : List Effect} (h : s.Poised (effect :: due))
    (deferred : effect.isDeferred) : (s.perform effect).Poised due := by
  have inStep := h.inStep.perform deferred
  obtain ⟨slot, sited⟩ := h.sited
  by_cases move : ∃ target handle, effect = .focus target ∧ s.handle? target = some handle
  · obtain ⟨target, handle, rfl, shown⟩ := move
    have focused : InStep { s with display := s.display.focus handle } :=
      ⟨h.inStep.running, h.inStep.deferred, h.inStep.sound,
        h.inStep.aligned.alike ⟨rfl, rfl, rfl⟩, h.inStep.shown⟩
    have pointed : Sited { s with display := s.display.focus handle } (some target) :=
      ⟨sited.bare, sited.terms, .slot ((handle?_congr rfl target).trans shown) rfl⟩
    rw [perform_shown shown] at inStep ⊢
    exact ⟨inStep, ⟨_, sited_dispatch focused.running focused.aligned nofun pointed⟩,
      agreeing_focused focused ((handle?_congr rfl target).trans shown) rfl⟩
  · have hidden : ∀ target, effect = .focus target → s.handle? target = none := by
      intro target eq
      by_contra shown
      obtain ⟨handle, shown⟩ := Option.ne_none_iff_exists'.mp shown
      exact move ⟨target, handle, eq, shown⟩
    exact ⟨inStep, ⟨slot, (stays_perform deferred hidden).1.sited sited⟩,
      (agreeing_perform_iff deferred hidden).mpr h.agreeing⟩

lemma Poised.turn (h : s.Poised []) : s.turn.2.Poised [] := by
  obtain ⟨slot, sited⟩ := h.sited
  have due : Poised { s with queue := [] } s.queue := by
    refine ⟨?_, ⟨slot, ?_⟩, agreeing_due.mpr h.agreeing⟩
    · exact ⟨h.inStep.running, nofun, h.inStep.sound,
        ⟨h.inStep.aligned.sound, h.inStep.aligned.handles⟩, h.inStep.shown⟩
    · exact ⟨sited.bare, sited.terms,
        sited.points.congr rfl fun target _ found => (handle?_congr rfl target).trans found⟩
  rw [turn_eq h.inStep.running]
  exact foldl_perform (fun _ _ _ deferred h => h.perform deferred) h.inStep.deferred due

/-- A disagreement that no move ends stays. -/
lemma not_agreeing_turn (h : s.InStep) (lost : ¬ s.Agreeing []) : ¬ s.turn.2.Agreeing [] := by
  have perform : ∀ (s : Session) (effect : Effect) (due : List Effect), effect.isDeferred →
      ¬ s.Agreeing (effect :: due) → ¬ (s.perform effect).Agreeing due := by
    intro s effect due deferred lost
    have hidden : ∀ slot, effect = .focus slot → s.handle? slot = none := by
      rintro slot rfl
      by_contra shown
      exact lost (.inr ⟨slot, List.mem_cons_self, Option.ne_none_iff_isSome.mp shown⟩)
    rw [agreeing_perform_iff deferred hidden]
    exact lost
  rw [turn_eq h.running]
  exact foldl_perform (P := fun s due => ¬ s.Agreeing due) perform h.deferred
    fun agreeing => lost (agreeing_due.mp agreeing)

/-- Once nothing waits, the display and the editor agree. -/
lemma Poised.idle (h : s.Poised []) (empty : s.queue = []) : s.Agrees := by
  rcases h.agreeing with agrees | ⟨slot, mem, _⟩
  · exact agrees
  · rw [empty] at mem
    cases mem

lemma Poised.settled (h : s.Poised []) : s.settle.queue = [] ∧ s.settle.Agrees := by
  have empty : s.settle.queue = [] := by
    have two : s.settle = turns 2 s := turns_add_two h.inStep.running 62
    rw [two]
    exact queue_turns_two h.inStep.running
  have later : s.settle.Poised [] :=
    turns_invariant (P := fun s => s.Poised []) (fun _ h => h.turn) maxTurns h
  exact ⟨empty, later.idle empty⟩

/-- A session that is upset does not recover by itself. -/
lemma not_agrees_settle (h : s.InStep) (lost : ¬ s.Agreeing []) : ¬ s.settle.Agrees := by
  have settled := turns_invariant (P := fun s => s.InStep ∧ ¬ s.Agreeing [])
    (fun _ h => ⟨h.1.turn, not_agreeing_turn h.1 h.2⟩) maxTurns ⟨h, lost⟩
  exact fun agrees => settled.2 (.inl agrees)

/-- A message upsets a session just if they disagree for good after it. -/
lemma Poised.settle_agrees_iff (h : s.Poised []) (inside : ∀ slot, message ≠ .focused slot) :
    (s.dispatch message).settle.Agrees ↔ ¬ s.Upsets message := by
  constructor
  · intro agrees upset
    have editing : message.scope ≠ .loading := by
      intro loading
      obtain ⟨payload, rfl⟩ := Message.load_of_scope loading
      exact upset
    refine not_agrees_settle (h.inStep.dispatch editing) (fun agreeing => ?_) agrees
    exact (h.dispatch_iff inside).mp ((h.dispatch_iff_agreeing editing).mpr agreeing) upset
  · exact fun calm => ((h.dispatch_iff inside).mpr calm).settled.2

/-! ## Runs -/

/-- On a blank display, attaching a session shows the terms of the editor, if there are any. -/
lemma poised_attach (running : s.destroyed = false) (queue : s.queue = []) (handles : s.handles = [])
    (sound : s.editor.WellFormed) (blank : s.display.Blank) (nowhere : s.display.focused = none) :
    s.attach.Poised [] := by
  have inStep := inStep_attach running queue handles sound blank
  have slots : s.display.slotHandles = [] := by
    rw [Display.slotHandles, blank.slots]
    rfl
  have aligned : s.Aligned := by
    refine ⟨?_, slots.trans handles.symm⟩
    constructor <;> simp [slots, blank.rendered]
  have bare : ∀ handle ∈ s.handles, handle ≠ Display.inputHandle := by
    rw [handles]
    exact List.forall_mem_nil _
  have sited : s.Sited none := ⟨blank.rendered, bare, .nowhere nowhere⟩
  have message : ∃ message, message.scope ≠ .loading ∧ s.attach = s.dispatch message := by
    unfold attach
    split
    · exact ⟨.refresh, by rintro ⟨⟩, rfl⟩
    · refine ⟨.reset, by rintro ⟨⟩, ?_⟩
      dsimp only
      rw [Display.prerendered, blank.rendered]
      rfl
  obtain ⟨message, editing, eq⟩ := message
  have after := sited_dispatch running aligned editing sited
  rw [Slot.follow_none, ← eq] at after
  exact ⟨inStep, ⟨_, after⟩, .inl (agrees_of_sited after (by rintro _ ⟨⟩))⟩

lemma Undisturbed.poised (h : Undisturbed s) : s.Poised [] := by
  induction h with
  | start keymap reachable blank nowhere =>
    exact poised_attach rfl rfl rfl reachable.wellFormed blank nowhere
  | dispatch _ inside calm ih => exact (ih.dispatch_iff inside).mpr calm
  | load _ loaded ih => exact ih.load loaded
  | turn _ ih => exact ih.turn
  | refresh _ blank nowhere ih =>
    exact poised_attach ih.inStep.running rfl rfl ih.inStep.sound blank nowhere

/-- Whenever nothing waits in an undisturbed session, the slot in focus on the display, if there is
one, is the one in focus in the editor; and there is always a moment when nothing waits. Only a message
that upsets the session changes that. -/
theorem agrees_when_idle (h : Undisturbed s) :
    (s.queue = [] → s.Agrees) ∧ s.settle.queue = [] ∧ s.settle.Agrees ∧
      ∀ message, (∀ slot, message ≠ .focused slot) →
        ((s.dispatch message).settle.Agrees ↔ ¬ s.Upsets message) := by
  obtain ⟨empty, agrees⟩ := h.poised.settled
  exact ⟨h.poised.idle, empty, agrees, fun _ inside => h.poised.settle_agrees_iff inside⟩

/-- A spoilt draft kept the focus while the display gave it to the trailing input. -/
lemma undisturbed_spoilt : Undisturbed spoilt := by
  have reachable : ((Editor.new {} .filter).restore [.column ['a'], .operator ['=']]).Reachable := by
    have accepted : Editor.ofTerms {} .filter [.column ['a'], .operator ['=']] =
        .ok ((Editor.new {} .filter).restore [.column ['a'], .operator ['=']]) := rfl
    exact ⟨_, [], .ofTerms accepted, rfl⟩
  have blank : ({} : Display).Blank := ⟨rfl, rfl⟩
  have inside : ∀ slot, Message.backward ≠ .focused slot ∧ Message.insertChar 'x' ≠ .focused slot ∧
      Message.forward ≠ .focused slot := fun _ => ⟨nofun, nofun, nofun⟩
  have started := Undisturbed.start {} reachable blank rfl
  have asked := started.dispatch (fun slot => (inside slot).1) fun upset =>
    upset.1 (.inl rfl)
  have idle := turns_invariant (P := Undisturbed) (fun _ h => .turn h) maxTurns asked
  have edited := idle.dispatch (fun slot => (inside slot).2.1) fun upset =>
    upset.1 (.inr rfl)
  have asked := edited.dispatch (fun slot => (inside slot).2.2) fun upset =>
    upset.1 (.inr rfl)
  unfold spoilt settle
  exact asked

/-- The draft gets the focus back as soon as nothing waits any more. -/
theorem agrees_when_idle_spoilt :
    ¬ spoilt.turn.2.Agrees ∧ spoilt.turn.2.settle.display.focused = some 2 ∧
      spoilt.turn.2.settle.queue = [] ∧ spoilt.turn.2.settle.Agrees := by
  obtain ⟨_, empty, agrees, _⟩ := agrees_when_idle undisturbed_spoilt.turn
  refine ⟨?_, by decide, empty, agrees⟩
  unfold Agrees
  decide

/-- A term goes while the spoilt draft behind it claims the focus back. The claim misses the draft, and
the display and the editor disagree for good. -/
theorem disagrees_when_idle :
    let s := (spoilt.turn.2.dispatch (.remove 0)).settle
    s.queue = [] ∧ s.display.focused = some Display.inputHandle ∧
      s.editor.focus = .term 0 ∧ s.handle? (.term 0) = some 2 ∧ ¬ s.Agrees := by
  unfold Agrees
  decide

end FilterEditor.Session
