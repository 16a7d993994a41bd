import FilterEditor.Proofs.Adoption

/-!
# Sessions in step

A session keeps its display in step with its editor: one slot per term, in order, with handles that
are never mixed up, and the search string, the preview and the placeholder of the editor beside them.

`InStep` is the invariant. Attaching an editor establishes it, and every action keeps it: a message
is carried out effect by effect (`foldl_follows`), and replaying these effects on what the display
shows gives what it should show of the changed editor. Slots may be loaded as long as they describe
what is on the display; a session that was told something else would believe it.
-/

namespace FilterEditor

/-- A display without any slot, now or before. -/
structure Display.Blank (d : Display) : Prop where
  slots : d.slots = []
  rendered : d.rendered = []

/-- The only messages that load something are loads. -/
lemma Message.load_of_scope {message : Message} (h : message.scope = .loading) :
    ∃ payload, message = .load payload := by
  cases message with
  | load payload => exact ⟨payload, rfl⟩
  | _ => cases h

namespace Session

/-- Something that happens to a session, short of its end. -/
inductive Action where
  /-- A message is sent. -/
  | dispatch (message : Message)
  /-- A key is pressed. -/
  | press (keystroke : Keystroke)
  /-- A text is typed. -/
  | typeText (text : Text)
  /-- What waits is carried out once. -/
  | turn
  /-- What waits is carried out until nothing waits. -/
  | settle
  /-- A payload is restored. -/
  | load (payload : Payload)
  /-- Another display takes the place of the one used until now. -/
  | refresh (display : Display)

/-- A session after an action; a payload that is refused changes nothing. -/
def act (s : Session) : Action → Session
  | .dispatch message => s.dispatch message
  | .press keystroke => (s.press keystroke).2
  | .typeText text => s.typeText text
  | .turn => s.turn.2
  | .settle => s.settle
  | .load payload =>
    match s.load payload with
    | .ok s => s
    | .error _ => s
  | .refresh display => (s.refresh display).2

/-- Slots are loaded only with the terms that they hold. -/
def Truthful (s : Session) : Payload → Prop
  | .slots metas => metas.map (·.term) = s.display.prerenderedTerms
  | _ => True

/-- An action that loads slots only with the terms that they hold, and goes on with blank displays
only. -/
def Allows (s : Session) : Action → Prop
  | .dispatch (.load payload) => s.Truthful payload
  | .load payload => s.Truthful payload
  | .refresh display => display.Blank
  | _ => True

/-- A session of an editor that was attached to a display. -/
inductive Attached : Session → Prop
  /-- An editor on a blank display. -/
  | blank {e : Editor} {d : Display} (keymap : Keymap) (reachable : e.Reachable) (blank : d.Blank) :
      Attached (start e d keymap)
  /-- An editor without terms on a display that shows terms which the grammar accepts. -/
  | rendered {e : Editor} {terms : List Term} (listeners : List Text) (keymap : Keymap)
      (reachable : e.Reachable) (empty : e.hasTerms = false)
      (accepted : Editor.checkTerms e.grammar terms = .ok ()) :
      Attached (start e { Display.ofTerms terms with listeners } keymap)
  /-- A session goes on. -/
  | act {s : Session} {action : Action} (attached : Attached s) (allowed : s.Allows action) :
      Attached (s.act action)

/-- A display in step with the editor. -/
structure Lockstep (s : Session) : Prop where
  nodup : s.handles.Nodup
  handles_length : s.handles.length = s.editor.terms.length
  slots_length : s.display.slots.length = s.editor.terms.length
  slot : ∀ (i : Nat) slot, s.display.slots[i]? = some slot →
    s.handles[i]? = some slot.handle ∧ s.editor.terms.get? i = some slot.term
  synced : s.display.synced = s.editor.serialized
  preview : s.display.preview = s.editor.preview.map (·.label)
  placeholder : s.display.placeholder = s.editor.placeholder

/-- Everything that keeps a session in step. -/
structure InStep (s : Session) : Prop where
  running : s.destroyed = false
  deferred : ∀ effect ∈ s.queue, effect.isDeferred
  sound : s.editor.WellFormed
  aligned : s.Aligned
  shown : s.display.view = s.editor.view

variable {s s' : Session} {message : Message} {payload : Payload}

/-! ## Carrying out effects -/

/-- What carrying out effects makes of a session. -/
structure Follows (s s' : Session) (v : View) : Prop where
  aligned : s'.Aligned
  view : s'.display.view = v
  editor : s'.editor = s.editor
  destroyed : s'.destroyed = s.destroyed
  deferred : (∀ effect ∈ s.queue, effect.isDeferred) → ∀ effect ∈ s'.queue, effect.isDeferred

/-- Carrying out an effect touches neither the editor nor the queue. -/
lemma enact_eq (s : Session) (effect : Effect) :
    ∃ display handles, s.enact effect = { s with display, handles } := by
  have atHandle : ∀ handle change, ∃ display handles,
      s.atHandle handle change = { s with display, handles } := by
    intro handle change
    cases handle <;> exact ⟨_, _, rfl⟩
  cases effect with
  | renderTerm index t =>
    simp only [enact, renderTerm]
    split <;> exact ⟨_, _, rfl⟩
  | removeSlot index =>
    simp only [enact, removeSlot]
    split <;> exact ⟨_, _, rfl⟩
  | updateTerm => exact atHandle _ _
  | writeValue => exact atHandle _ _
  | setSelected => exact atHandle _ _
  | setValidity => exact atHandle _ _
  | reportValidity => exact atHandle _ _
  | focus => exact atHandle _ _
  | _ => exact ⟨_, _, rfl⟩

/-- Carrying out a command touches the display and the queue. -/
lemma apply_eq (s : Session) (command : Command) :
    ∃ display handles queue, s.apply command = { s with display, handles, queue } := by
  unfold apply
  induction command.effects generalizing s with
  | nil => exact ⟨_, _, _, rfl⟩
  | cons effect rest ih =>
    obtain ⟨_, _, _, first⟩ : ∃ display handles queue,
        s.accept effect = { s with display, handles, queue } := by
      unfold accept
      split
      · exact ⟨_, _, _, rfl⟩
      · obtain ⟨_, _, eq⟩ := enact_eq s effect
        exact ⟨_, _, _, eq⟩
    obtain ⟨_, _, _, last⟩ := ih (s.accept effect)
    rw [List.foldl_cons, last, first]
    exact ⟨_, _, _, rfl⟩

lemma enact_follows (h : s.Aligned) (effect : Effect) :
    Follows s (s.enact effect) (s.display.view.after effect) := by
  obtain ⟨aligned, view⟩ := enact_view h effect
  obtain ⟨display, handles, eq⟩ := enact_eq s effect
  refine ⟨aligned, view, ?_, ?_, ?_⟩
  · rw [eq]
  · rw [eq]
  · rw [eq]
    exact id

/-- An effect that has to wait changes nothing of the view. -/
lemma after_deferred {effect : Effect} (deferred : effect.isDeferred) (v : View) :
    v.after effect = v := by
  cases effect <;> first | rfl | cases deferred

lemma accept_follows (h : s.Aligned) (effect : Effect) :
    Follows s (s.accept effect) (s.display.view.after effect) := by
  unfold accept
  split
  · rename_i deferred
    rw [after_deferred deferred]
    refine ⟨⟨h.sound, h.handles⟩, rfl, rfl, rfl, fun queue => ?_⟩
    intro effect mem
    rcases List.mem_append.mp mem with mem | mem
    · exact queue effect mem
    · cases List.mem_singleton.mp mem
      exact deferred
  · exact enact_follows h effect

lemma foldl_follows (effects : List Effect) (h : s.Aligned) :
    Follows s (effects.foldl accept s) (s.display.view.replay effects) := by
  induction effects generalizing s with
  | nil => exact ⟨h, rfl, rfl, rfl, id⟩
  | cons effect rest ih =>
    have first := accept_follows h effect
    have last := ih first.aligned
    refine ⟨last.aligned, ?_, last.editor.trans first.editor,
      last.destroyed.trans first.destroyed, fun queue => last.deferred (first.deferred queue)⟩
    rw [List.foldl_cons, last.view, first.view]
    rfl

/-- A session is in step once the effects that it carries out show its editor. -/
lemma inStep_apply {effects : List Effect} (running : s.destroyed = false)
    (deferred : ∀ effect ∈ s.queue, effect.isDeferred) (sound : s.editor.WellFormed)
    (aligned : s.Aligned) (shown : s.display.view.replay effects = s.editor.view) :
    (s.apply (Command.ofEffects effects)).InStep := by
  have follows := foldl_follows effects aligned
  unfold apply
  rw [Command.effects_ofEffects]
  refine ⟨follows.destroyed.trans running, follows.deferred deferred, ?_, follows.aligned, ?_⟩
  · rw [follows.editor]
    exact sound
  · rw [follows.view, follows.editor]
    exact shown

/-! ## Messages -/

/-- A message that loads nothing is answered by the editor. -/
lemma dispatch_eq (running : s.destroyed = false) (editing : message.scope ≠ .loading) :
    s.dispatch message =
      apply (Command.ofEffects (s.editor.respond message).effects)
        { s with editor := (s.editor.respond message).editor } := by
  unfold dispatch
  rw [running]
  cases message with
  | load => exact (editing rfl).elim
  | _ => rfl

/-- A message that loads nothing keeps a session in step. -/
lemma InStep.dispatch (h : s.InStep) (editing : message.scope ≠ .loading) :
    (s.dispatch message).InStep := by
  rw [dispatch_eq h.running editing]
  apply inStep_apply
  · exact h.running
  · exact h.deferred
  · exact h.sound.run [message]
  · exact ⟨h.aligned.sound, h.aligned.handles⟩
  · have shown := Editor.replay_respond editing h.sound
    rw [← h.shown] at shown
    exact shown

/-- A payload that is restored is accepted by the session and by its editor. -/
lemma load_eq (running : s.destroyed = false) (loaded : s.load payload = .ok s') :
    ∃ handles change, s.adopted? payload = .ok handles ∧ s.editor.load payload = .ok change ∧
      s' = apply (Command.ofEffects change.effects)
        (adopt handles { s with editor := change.editor }) := by
  unfold load at loaded
  rw [if_neg (Bool.eq_false_iff.mp running)] at loaded
  cases adopted : s.adopted? payload with
  | error => simp [adopted, bind, Except.bind] at loaded
  | ok handles =>
    cases load : s.editor.load payload with
    | error => simp [adopted, load, bind, Except.bind] at loaded
    | ok change =>
      simp only [adopted, load, bind, Except.bind] at loaded
      cases loaded
      exact ⟨handles, change, rfl, rfl, rfl⟩

/-- Slots are restored by taking over those that were rendered before, if they are as many. -/
lemma load_slots {metas : List SlotMeta} (running : s.destroyed = false)
    (loaded : s.load (.slots metas) = .ok s') :
    s.display.prerendered.length = metas.length ∧
      Editor.checkTerms s.editor.grammar (metas.map (·.term)) = .ok () ∧
        s' = apply (Command.ofEffects (s.editor.restore (metas.map (·.term))).settledEffects)
          (adopt (some s.display.prerenderedHandles)
            { s with editor := s.editor.restore (metas.map (·.term)) }) := by
  obtain ⟨handles, change, adopted, load, rfl⟩ := load_eq running loaded
  obtain ⟨terms, payload, accepted, rfl⟩ := Editor.load_eq_ok load
  have same : terms = metas.map (·.term) := by
    unfold Editor.payloadTerms at payload
    dsimp only at payload
    cases check : Editor.checkSlots metas with
    | error => simp [check, bind, Except.bind] at payload
    | ok =>
      simp only [check, bind, Except.bind] at payload
      cases payload
      rfl
  subst same
  unfold adopted? at adopted
  dsimp only at adopted
  split at adopted
  · rename_i length
    cases adopted
    rw [List.length_map] at length
    exact ⟨length, accepted, rfl⟩
  · cases adopted

/-- A payload that is not on display yet is restored by rendering its terms in place of all others. -/
lemma load_terms (running : s.destroyed = false) (hidden : ∀ metas, payload ≠ .slots metas)
    (loaded : s.load payload = .ok s') :
    ∃ terms, Editor.checkTerms s.editor.grammar terms = .ok () ∧
      s' = apply (Command.ofEffects (s.editor.removalEffects ++
          (s.editor.restore terms).renderEffects ++ (s.editor.restore terms).settledEffects))
        { s with editor := s.editor.restore terms } := by
  obtain ⟨handles, change, adopted, load, rfl⟩ := load_eq running loaded
  obtain ⟨terms, _, accepted, rfl⟩ := Editor.load_eq_ok load
  refine ⟨terms, accepted, ?_⟩
  cases payload with
  | slots metas => exact (hidden metas rfl).elim
  | _ =>
    cases adopted
    rfl

lemma wellFormed_restore {e : Editor} {terms : List Term} (h : e.WellFormed)
    (accepted : Editor.checkTerms e.grammar terms = .ok ()) : (e.restore terms).WellFormed := by
  have step : Editor.Step .loading e true _ := .adopt rfl accepted
  exact step.wellFormed h

/-- Taking over slots with the terms that they hold puts a session in step. -/
lemma inStep_slots {metas : List SlotMeta} (running : s.destroyed = false)
    (deferred : ∀ effect ∈ s.queue, effect.isDeferred) (sound : s.editor.WellFormed)
    (display : s.display.Sound)
    (covered : ∀ slot ∈ s.display.slots,
      slot.handle ∈ s.handles ∨ slot.handle ∈ s.display.prerenderedHandles)
    (truthful : s.Truthful (.slots metas)) (loaded : s.load (.slots metas) = .ok s') :
    s'.InStep := by
  obtain ⟨_, accepted, rfl⟩ := load_slots running loaded
  obtain ⟨aligned, view⟩ :=
    adopt_view (s := { s with editor := s.editor.restore (metas.map (·.term)) }) display covered
  apply inStep_apply
  · exact running
  · exact deferred
  · exact wellFormed_restore sound accepted
  · exact aligned
  · apply Editor.replay_settled
    rw [view, ← truthful]
    rfl

/-- A payload that is restored keeps a session in step. -/
lemma InStep.load (h : s.InStep) (truthful : s.Truthful payload)
    (loaded : s.load payload = .ok s') : s'.InStep := by
  -- A payload that is not on display yet replaces all slots, so it does not matter what they show.
  have other : (∀ metas, payload ≠ .slots metas) → s'.InStep := by
    intro hidden
    obtain ⟨terms, accepted, rfl⟩ := load_terms h.running hidden loaded
    apply inStep_apply
    · exact h.running
    · exact h.deferred
    · exact wellFormed_restore h.sound accepted
    · exact ⟨h.aligned.sound, h.aligned.handles⟩
    · exact Editor.replay_reload terms (congrArg View.terms h.shown)
  cases payload with
  | slots metas =>
    refine inStep_slots h.running h.deferred h.sound h.aligned.sound ?_ truthful loaded
    intro slot mem
    left
    rw [← h.aligned.handles]
    exact List.mem_map_of_mem mem
  | _ => exact other nofun

/-! ## Turns, keys and texts -/

lemma InStep.enact (h : s.InStep) {effect : Effect} (deferred : effect.isDeferred) :
    (s.enact effect).InStep := by
  have follows := enact_follows h.aligned effect
  refine ⟨follows.destroyed.trans h.running, follows.deferred h.deferred, ?_, follows.aligned, ?_⟩
  · rw [follows.editor]
    exact h.sound
  · rw [follows.view, after_deferred deferred, follows.editor]
    exact h.shown

lemma InStep.perform (h : s.InStep) {effect : Effect} (deferred : effect.isDeferred) :
    (s.perform effect).InStep := by
  have enacted := h.enact deferred
  cases effect with
  | focus slot =>
    unfold Session.perform
    dsimp only
    split
    · exact h
    · exact enacted.dispatch nofun
  | _ => exact enacted

/-- What every effect that is carried out preserves, given those that are still due, holds in the
end. -/
lemma foldl_perform {P : Session → List Effect → Prop} {effects : List Effect}
    (step : ∀ s effect due, effect.isDeferred → P s (effect :: due) → P (s.perform effect) due)
    (deferred : ∀ effect ∈ effects, effect.isDeferred) (h : P s effects) :
    P (effects.foldl perform s) [] := by
  induction effects generalizing s with
  | nil => exact h
  | cons effect rest ih =>
    refine ih (fun effect mem => deferred effect (List.mem_cons_of_mem _ mem)) ?_
    exact step s effect rest (deferred effect List.mem_cons_self) h

/-- What every turn preserves, turns one after the other preserve. -/
lemma turns_invariant {P : Session → Prop} (step : ∀ s, P s → P s.turn.2) (n : Nat) (h : P s) :
    P (turns n s) := by
  induction n generalizing s with
  | zero => exact h
  | succ n ih =>
    unfold turns
    split
    · exact h
    · exact ih (step s h)

lemma InStep.turn (h : s.InStep) : s.turn.2.InStep := by
  unfold Session.turn
  rw [if_neg (Bool.eq_false_iff.mp h.running)]
  -- What the effects of this turn put into the queue waits for the next one.
  have emptied : ({ s with queue := [] } : Session).InStep :=
    ⟨h.running, nofun, h.sound, ⟨h.aligned.sound, h.aligned.handles⟩, h.shown⟩
  exact foldl_perform (P := fun s _ => s.InStep) (fun _ _ _ deferred h => h.perform deferred)
    h.deferred emptied

lemma InStep.turns (h : s.InStep) (n : Nat) : (turns n s).InStep :=
  turns_invariant (fun _ h => h.turn) n h

lemma InStep.dispatchAll (h : s.InStep) {messages : List Message}
    (editing : ∀ message ∈ messages, message.scope ≠ .loading) :
    (messages.foldl (fun s message => s.dispatch message) s).InStep := by
  induction messages generalizing s with
  | nil => exact h
  | cons message rest ih =>
    exact ih (h.dispatch (editing message List.mem_cons_self)) fun message mem =>
      editing message (List.mem_cons_of_mem _ mem)

lemma scope_of_keyMessages {e : Editor} {keymap : Keymap} {k : Keystroke}
    (h : message ∈ keyMessages e keymap k) : message.scope ≠ .loading := by
  unfold keyMessages at h
  split at h
  · rename_i action _
    cases action with
    | saveTerm =>
      obtain ⟨_, _, rfl⟩ := List.mem_map.mp h
      nofun
    | unbound => cases h
    | _ =>
      cases List.mem_singleton.mp h
      nofun
  · obtain ⟨_, _, rfl⟩ := List.mem_map.mp h
    nofun

lemma InStep.press (h : s.InStep) (k : Keystroke) : (s.press k).2.InStep := by
  unfold Session.press
  rw [h.running]
  exact h.dispatchAll fun message mem => scope_of_keyMessages mem

lemma InStep.typeText (h : s.InStep) (text : Text) : (s.typeText text).InStep := by
  have typed : s.typeText text =
      (text.map Message.insertChar).foldl (fun s message => s.dispatch message) s := by
    unfold Session.typeText
    rw [List.foldl_map]
  rw [typed]
  apply h.dispatchAll
  intro message mem
  obtain ⟨_, _, rfl⟩ := List.mem_map.mp mem
  nofun

/-! ## Attaching -/

/-- Attaching an editor to a blank display puts the session in step. -/
lemma inStep_attach (running : s.destroyed = false) (queue : s.queue = [])
    (handles : s.handles = []) (sound : s.editor.WellFormed) (blank : s.display.Blank) :
    s.attach.InStep := by
  have aligned : ∀ editor, Aligned { s with editor } := by
    intro editor
    have slots : s.display.slotHandles = [] := by rw [Display.slotHandles, blank.slots]; rfl
    have display : s.display.Sound := by
      constructor <;> simp [slots, blank.rendered]
    exact ⟨display, slots.trans handles.symm⟩
  have deferred : ∀ effect ∈ s.queue, effect.isDeferred := by
    rw [queue]
    exact fun _ mem => (List.not_mem_nil mem).elim
  have bare : s.display.view.terms = [] := by rw [Display.view, blank.slots]; rfl
  unfold attach
  split
  -- Nothing is shown yet, so the display is not in step before: everything is rendered anew.
  · have editing : Message.refresh.scope ≠ .loading := by decide
    rw [dispatch_eq running editing]
    refine inStep_apply running deferred (sound.run [.refresh]) (aligned _) ?_
    apply Editor.replay_rendered
    rw [bare]
    exact Nat.zero_le _
  · rename_i empty
    have prerendered : s.display.prerendered = [] := by
      rw [Display.prerendered, blank.rendered]
      rfl
    dsimp only
    rw [prerendered]
    simp only [List.isEmpty_nil, if_true]
    have editing : Message.reset.scope ≠ .loading := by decide
    rw [dispatch_eq running editing]
    refine inStep_apply running deferred (sound.run [.reset]) (aligned _) ?_
    have none : s.editor.terms.terms = [] := by
      simpa [Editor.hasTerms, Sequence.isEmpty] using empty
    have removals : s.editor.removalEffects = [] := by
      simp [Editor.removalEffects, Sequence.length, none]
    have effects : (s.editor.respond .reset).effects = (s.editor.restore []).settledEffects := by
      have eq : (s.editor.respond .reset).effects =
          s.editor.removalEffects ++ (s.editor.restore []).settledEffects := rfl
      rw [eq, removals, List.nil_append]
    rw [effects]
    exact Editor.replay_settled bare

/-- Attaching an editor without terms to a display that shows some puts the session in step. -/
lemma inStep_attach_rendered {terms : List Term} (running : s.destroyed = false)
    (queue : s.queue = []) (sound : s.editor.WellFormed) (empty : s.editor.hasTerms = false)
    (accepted : Editor.checkTerms s.editor.grammar terms = .ok ())
    (laid : Display.Laid terms s.display) (some : terms ≠ []) : s.attach.InStep := by
  have deferred : ∀ effect ∈ s.queue, effect.isDeferred := by
    rw [queue]
    exact fun _ mem => (List.not_mem_nil mem).elim
  have metas : s.display.prerendered.map (·.2) = terms.mapIdx SlotMeta.mk := by
    rw [laid.prerendered, laid.metas]
  have nonempty : s.display.prerendered.isEmpty = false := by
    rw [laid.prerendered, List.isEmpty_eq_false_iff]
    intro none
    have length := congrArg List.length laid.metas
    rw [none] at length
    exact some (List.length_eq_zero_iff.mp (by simpa using length.symm))
  have handles : s.display.prerenderedHandles = s.display.slotHandles := by
    rw [Display.prerenderedHandles, laid.prerendered, laid.handles]
  -- The slots on display are numbered in order and their terms have kinds, so nothing is refused.
  have loads : ∃ s', s.load (.slots (s.display.prerendered.map (·.2))) = .ok s' := by
    have adopted : s.adopted? (.slots (s.display.prerendered.map (·.2))) =
        .ok (Option.some s.display.prerenderedHandles) := by
      simp [adopted?, Display.prerenderedHandles]
    have load : ∃ change, s.editor.load (.slots (s.display.prerendered.map (·.2))) = .ok change := by
      unfold Editor.load
      rw [metas, Editor.payloadTerms_mapIdx]
      simp only [bind, Except.bind, accepted]
      exact ⟨_, rfl⟩
    obtain ⟨change, load⟩ := load
    unfold Session.load
    rw [running]
    simp only [adopted, load, bind, Except.bind]
    exact ⟨_, rfl⟩
  obtain ⟨s', loads⟩ := loads
  unfold attach
  rw [empty]
  dsimp only
  rw [nonempty]
  simp only [Bool.false_eq_true, if_false]
  rw [loads]
  refine inStep_slots running deferred sound laid.sound ?_ ?_ loads
  · intro slot mem
    right
    rw [handles]
    exact List.mem_map_of_mem mem
  · unfold Truthful
    rw [metas, laid.prerenderedTerms]
    exact Editor.map_term_mapIdx terms

/-! ## Sessions -/

/-- Every action that the session allows keeps it in step. -/
lemma InStep.act (h : s.InStep) {action : Action} (allowed : s.Allows action) :
    (s.act action).InStep := by
  have load : ∀ payload, s.Truthful payload →
      InStep (match s.load payload with
        | .ok s => s
        | .error _ => s) := by
    intro payload truthful
    split
    · rename_i loaded
      exact h.load truthful loaded
    · exact h
  cases action with
  | dispatch message =>
    by_cases loading : message.scope = .loading
    · obtain ⟨payload, rfl⟩ := Message.load_of_scope loading
      have dispatched : s.act (.dispatch (.load payload)) =
          match s.load payload with
          | .ok s => s
          | .error _ => s := if_neg (Bool.eq_false_iff.mp h.running)
      rw [dispatched]
      exact load payload allowed
    · exact h.dispatch loading
  | press k => exact h.press k
  | typeText text => exact h.typeText text
  | turn => exact h.turn
  | settle => exact h.turns _
  | load payload => exact load payload allowed
  | refresh display => exact inStep_attach h.running rfl rfl h.sound allowed

lemma Attached.inStep (h : Attached s) : s.InStep := by
  induction h with
  | blank keymap reachable blank =>
    exact inStep_attach rfl rfl rfl reachable.wellFormed blank
  | @rendered e terms listeners keymap reachable empty accepted =>
    have laid := Display.laid_ofTerms terms
    by_cases none : terms = []
    · subst none
      exact inStep_attach rfl rfl rfl reachable.wellFormed ⟨rfl, rfl⟩
    · exact inStep_attach_rendered rfl rfl reachable.wellFormed empty accepted
        ⟨⟨laid.sound.slots, laid.sound.given, laid.sound.rendered, laid.sound.rendered_given⟩,
          laid.handles, laid.slots, laid.metas⟩ none
  | act _ allowed ih => exact ih.act allowed

lemma InStep.lockstep (h : s.InStep) : s.Lockstep := by
  have terms : s.display.slots.map (·.term) = s.editor.terms.terms := congrArg View.terms h.shown
  have handles : s.display.slots.map (·.handle) = s.handles := h.aligned.handles
  have slots_length : s.display.slots.length = s.editor.terms.length := by
    have length := congrArg List.length terms
    rw [List.length_map] at length
    exact length
  constructor
  · rw [← handles]
    exact h.aligned.sound.nodup
  · rw [← handles, List.length_map]
    exact slots_length
  · exact slots_length
  · intro i slot found
    constructor
    · rw [← handles, List.getElem?_map, found]
      rfl
    · have term : (s.display.slots.map (·.term))[i]? = some slot.term := by
        rw [List.getElem?_map, found]
        rfl
      rw [terms] at term
      exact term
  · exact congrArg View.synced h.shown
  · exact congrArg View.preview h.shown
  · exact congrArg View.placeholder h.shown

/-- Whatever happens to an attached editor, its display stays in step. -/
theorem lockstep_attached (h : Attached s) : s.Lockstep :=
  h.inStep.lockstep

/-- A display that shows a column and tells one listener about completions. -/
def columnDisplay : Display :=
  { Display.ofTerms [Term.column ['a']] with listeners := [Event.resetCompletion.name] }

/-- An editor takes over a column that is shown already, and an operator is typed behind it. -/
theorem lockstep_attached_column :
    Attached ((start (Editor.new {} .filter) columnDisplay {}).act (.typeText ['>', '1'])) ∧
      Lockstep ((start (Editor.new {} .filter) columnDisplay {}).act (.typeText ['>', '1'])) := by
  have reachable : (Editor.new {} .filter).Reachable := ⟨_, [], .new {} .filter, rfl⟩
  have started : Attached (start (Editor.new {} .filter) columnDisplay {}) :=
    .rendered [Event.resetCompletion.name] {} reachable rfl rfl
  have typed : Attached
      ((start (Editor.new {} .filter) columnDisplay {}).act (.typeText ['>', '1'])) :=
    .act started trivial
  exact ⟨typed, lockstep_attached typed⟩

end Session
end FilterEditor
