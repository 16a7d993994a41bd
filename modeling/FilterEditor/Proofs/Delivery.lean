import FilterEditor.Proofs.Settling

/-!
# Deliveries

Whatever happens to a session, its editor learns of it by messages: keys and texts are messages, a slot
that gets the focus is reported by one, and so is the display that a session is attached to.
`deliveries` lists the messages of an action, each with the session as it is then, and `history` those
of actions one after the other. What the editor answers in such a history is what it ever said. A
relation between sessions that holds of single messages and of turns, and composes, holds of every
history (`Composes.history`).

Notifications are the first use. They wait for their turn, while other messages come and turns send
messages themselves; `notified_in_order` says that none is lost, repeated or overtaken.
-/

namespace FilterEditor

namespace Display

/-- A display that is told something beside its slots. -/
def told (d : Display) : Effect → Display
  | .syncValue value => { d with synced := value }
  | .showPreview label => { d with preview := label }
  | .setPlaceholder text => { d with placeholder := text }
  | .setRequired required => { d with required }
  | .notify event => d.notify event
  | .submit value => d.submit value
  | _ => d

/-- A display on which slots were drawn, the trailing input among them, and nothing beside them. -/
def Redrawn (d d' : Display) : Prop :=
  ∃ lastHandle slots inputValue inputValidity focused reported,
    d' = { d with lastHandle, slots, inputValue, inputValidity, focused, reported }

lemma Redrawn.refl (d : Display) : Redrawn d d := ⟨_, _, _, _, _, _, rfl⟩

end Display

/-- The event that an effect notifies the listeners of. -/
def Effect.event? : Effect → Option Event
  | .notify event => some event
  | _ => none

/-- The events that effects notify the listeners of, in order. -/
def notices (effects : List Effect) : List Event := effects.filterMap (·.event?)

/-- The effects that have to wait, in order. -/
def waiting (effects : List Effect) : List Effect := effects.filter (·.isDeferred)

/-- A message, with the session that it reaches. -/
structure Delivery where
  session : Session
  message : Message

namespace Session

/-- Whether a session hands a message on to its editor: not once it is destroyed, nor slots that are not
as many as its display shows. -/
def relays (message : Message) (s : Session) : Bool :=
  !s.destroyed &&
    match message with
    | .load payload => (s.adopted? payload).toBool
    | _ => true

/-- The message by which a session is attached to its display. -/
def attachment (s : Session) : Message :=
  if s.editor.hasTerms then .refresh
  else if s.display.prerendered.isEmpty then .reset
  else .load (.slots (s.display.prerendered.map (·.2)))

/-- The deliveries of messages that are sent one after the other. -/
def sent (s : Session) : List Message → List Delivery
  | [] => []
  | message :: rest => ⟨s, message⟩ :: (s.dispatch message).sent rest

/-- The delivery of an effect whose turn has come: a slot that is shown gets the focus. -/
def reported (s : Session) : Effect → List Delivery
  | .focus slot =>
    match s.handle? slot with
    | none => []
    | some _ => [⟨s.enact (.focus slot), .focused slot⟩]
  | _ => []

/-- The deliveries of effects whose turn has come, one after the other. -/
def performed (s : Session) : List Effect → List Delivery
  | [] => []
  | effect :: rest => s.reported effect ++ (s.perform effect).performed rest

/-- The deliveries of a turn. -/
def turnDeliveries (s : Session) : List Delivery :=
  if s.destroyed then [] else performed { s with queue := [] } s.queue

/-- The deliveries of turns until nothing waits, at most as many as given. -/
def turnsDeliveries : Nat → Session → List Delivery
  | 0, _ => []
  | n + 1, s =>
    if s.queue.isEmpty || s.destroyed then [] else s.turnDeliveries ++ turnsDeliveries n s.turn.2

/-- The deliveries of an action. -/
def deliveries (s : Session) : Action → List Delivery
  | .dispatch message => [⟨s, message⟩]
  | .press k => if s.destroyed then [] else s.sent (keyMessages s.editor s.keymap k)
  | .typeText text => s.sent (text.map .insertChar)
  | .turn => s.turnDeliveries
  | .settle => turnsDeliveries maxTurns s
  | .load payload => [⟨s, .load payload⟩]
  | .refresh display =>
    let s := { s with display, handles := [], queue := [] }
    [⟨s, s.attachment⟩]

/-- The deliveries of actions, one after the other. -/
def history (s : Session) : List Action → List Delivery
  | [] => []
  | action :: rest => s.deliveries action ++ (s.act action).history rest

end Session

namespace Delivery

/-- The session after a delivery. -/
def after (d : Delivery) : Session := d.session.dispatch d.message

/-- The effects that the editor answers a delivery with. -/
def answer (d : Delivery) : List Effect :=
  if d.session.relays d.message then (d.session.editor.update d.message).2.effects else []

end Delivery

/-- The effects that an editor answers deliveries with, in order. -/
def answers (ds : List Delivery) : List Effect := ds.flatMap (·.answer)

lemma answers_cons (d : Delivery) (ds : List Delivery) : answers (d :: ds) = d.answer ++ answers ds :=
  List.flatMap_cons

lemma answers_append (first rest : List Delivery) :
    answers (first ++ rest) = answers first ++ answers rest :=
  List.flatMap_append

lemma notices_append (first rest : List Effect) :
    notices (first ++ rest) = notices first ++ notices rest :=
  List.filterMap_append

lemma waiting_append (first rest : List Effect) :
    waiting (first ++ rest) = waiting first ++ waiting rest :=
  List.filter_append _ _

/-- Notifications always wait. -/
lemma notices_waiting (effects : List Effect) : notices (waiting effects) = notices effects := by
  induction effects with
  | nil => rfl
  | cons effect rest ih =>
    have cons : waiting (effect :: rest) = waiting [effect] ++ waiting rest :=
      waiting_append [effect] rest
    have single : notices (waiting [effect]) = notices [effect] := by cases effect <;> rfl
    rw [cons, notices_append, single, ih]
    exact (notices_append [effect] rest).symm

namespace Session

variable {s : Session} {message : Message} {effect : Effect}

/-! ## Single messages -/

lemma act_load (s : Session) (payload : Payload) :
    s.act (.load payload) = s.dispatch (.load payload) := by
  cases destroyed : s.destroyed with
  | true => simp only [act, dispatch, load, destroyed, if_true]
  | false => exact (dispatch_load destroyed).symm

lemma attach_eq (s : Session) : s.attach = s.dispatch s.attachment := by
  unfold attach attachment
  split
  · rfl
  · dsimp only
    split
    · rfl
    · exact act_load s _

/-- A session that only its editor and its slots tell from another. -/
structure Resembles (s s' : Session) : Prop where
  queue : s'.queue = s.queue
  events : s'.display.events = s.display.events
  destroyed : s'.destroyed = s.destroyed

lemma resembles_adopt (s : Session) (editor : Editor) (handles : Option (List Nat)) :
    Resembles s ({ s with editor }.adopt handles) := by
  cases handles with
  | none => exact ⟨rfl, rfl, rfl⟩
  | some handles =>
    obtain ⟨_, eq⟩ :=
      Display.foldl_remove (s.handles.filter (!handles.contains ·)) s.display
    have events := congrArg Display.events eq
    exact ⟨rfl, events, rfl⟩

lemma answer_of_relays {d : Delivery} (relayed : d.session.relays d.message) :
    d.answer = (d.session.editor.respond d.message).effects := by
  unfold Delivery.answer
  rw [if_pos relayed]
  exact Command.effects_ofEffects _

lemma answer_of_not_relays {d : Delivery} (refused : d.session.relays d.message = false) :
    d.answer = [] := by
  unfold Delivery.answer
  rw [refused]
  rfl

/-- A payload that is refused is answered by nothing, and one that is restored as the editor does. -/
lemma answer_load (running : s.destroyed = false) (payload : Payload) :
    (∃ error, s.load payload = .error error ∧ (⟨s, .load payload⟩ : Delivery).answer = []) ∨
      ∃ handles editor, s.load payload =
        .ok (({ s with editor }.adopt handles).apply
          (Command.ofEffects (⟨s, .load payload⟩ : Delivery).answer)) := by
  have relayed : s.relays (.load payload) = (s.adopted? payload).toBool := by
    unfold relays
    rw [running]
    rfl
  cases loaded : s.load payload with
  | error error =>
    refine .inl ⟨error, rfl, ?_⟩
    rcases (load_eq_error_cases running).mp loaded with adopted | ⟨handles, adopted, refused⟩
    · rw [adopted] at relayed
      exact answer_of_not_relays relayed
    · rw [adopted] at relayed
      rw [answer_of_relays relayed]
      simp only [Editor.respond, Editor.loadOrIgnore, refused]
      rfl
  | ok s' =>
    obtain ⟨handles, change, adopted, load, rfl⟩ := load_eq running loaded
    refine .inr ⟨handles, change.editor, ?_⟩
    rw [adopted] at relayed
    rw [answer_of_relays relayed]
    simp only [Editor.respond, Editor.loadOrIgnore, load]

/-- All that a message makes a session carry out is what the editor answers. -/
lemma after_eq (d : Delivery) :
    ∃ s, Resembles d.session s ∧ d.after = s.apply (Command.ofEffects d.answer) := by
  obtain ⟨s, message⟩ := d
  have ignored : Resembles s s := ⟨rfl, rfl, rfl⟩
  unfold Delivery.after
  dsimp only
  cases destroyed : s.destroyed with
  | true =>
    have refused : s.relays message = false := by
      unfold relays
      rw [destroyed]
      rfl
    have still : s.dispatch message = s := if_pos destroyed
    rw [still, answer_of_not_relays refused]
    exact ⟨s, ignored, rfl⟩
  | false =>
    by_cases loading : message.scope = .loading
    · -- A payload passes the session first, which may refuse it or take over slots.
      obtain ⟨payload, rfl⟩ := Message.load_of_scope loading
      rw [dispatch_load destroyed, act]
      rcases answer_load destroyed payload with ⟨error, loaded, none⟩ | ⟨handles, editor, loaded⟩
      · rw [loaded, none]
        exact ⟨s, ignored, rfl⟩
      · rw [loaded]
        exact ⟨_, resembles_adopt s editor handles, rfl⟩
    · have relayed : s.relays message := by
        unfold relays
        rw [destroyed]
        cases message with
        | load => exact (loading rfl).elim
        | _ => rfl
      rw [dispatch_eq destroyed loading, answer_of_relays relayed]
      exact ⟨{ s with editor := (s.editor.respond message).editor }, ⟨rfl, rfl, rfl⟩, rfl⟩

/-! ## Effects -/

/-- Carrying out an effect draws slots, or tells the display something beside them. -/
lemma enact_told (s : Session) (effect : Effect) :
    Display.Redrawn (s.display.told effect) (s.enact effect).display := by
  have atHandle : ∀ handle change, (∀ handle d, Display.Redrawn d (change handle d)) →
      Display.Redrawn s.display (s.atHandle handle change).display := by
    intro handle change drawn
    cases handle with
    | none => exact .refl _
    | some handle => exact drawn handle s.display
  cases effect with
  | renderTerm index t =>
    simp only [enact, renderTerm]
    split <;> exact ⟨_, _, _, _, _, _, rfl⟩
  | removeSlot index =>
    simp only [enact, removeSlot]
    split <;> exact ⟨_, _, _, _, _, _, rfl⟩
  | writeValue _ value =>
    refine atHandle _ _ fun handle d => ?_
    unfold Display.write
    split <;> exact ⟨_, _, _, _, _, _, rfl⟩
  | setValidity _ message =>
    refine atHandle _ _ fun handle d => ?_
    unfold Display.setValidity
    split <;> exact ⟨_, _, _, _, _, _, rfl⟩
  | updateTerm => exact atHandle _ _ fun _ _ => ⟨_, _, _, _, _, _, rfl⟩
  | setSelected => exact atHandle _ _ fun _ _ => ⟨_, _, _, _, _, _, rfl⟩
  | reportValidity => exact atHandle _ _ fun _ _ => ⟨_, _, _, _, _, _, rfl⟩
  | focus => exact atHandle _ _ fun _ _ => ⟨_, _, _, _, _, _, rfl⟩
  | _ => exact .refl _

/-- Events are recorded one by one, as the effects that notify of them are carried out. -/
lemma enact_events (s : Session) (effect : Effect) :
    (s.enact effect).display.events = s.display.events ++ notices [effect] := by
  obtain ⟨_, _, _, _, _, _, eq⟩ := enact_told s effect
  rw [eq]
  cases effect with
  | notify => rfl
  | _ => exact (List.append_nil _).symm

/-- What no drawing and no effect touches that is carried out at once stays as it is. -/
lemma foldl_accept_kept {α : Type} {f : Display → α}
    (drawn : ∀ d d', Display.Redrawn d d' → f d' = f d) {effects : List Effect}
    (untold : ∀ effect ∈ effects, ¬ effect.isDeferred → ∀ d : Display, f (d.told effect) = f d)
    (s : Session) : f (effects.foldl accept s).display = f s.display := by
  induction effects generalizing s with
  | nil => rfl
  | cons effect rest ih =>
    have first : f (s.accept effect).display = f s.display := by
      unfold accept
      split
      · rfl
      · rename_i immediate
        exact (drawn _ _ (enact_told s effect)).trans
          (untold effect List.mem_cons_self immediate s.display)
    exact (ih (fun effect mem => untold effect (List.mem_cons_of_mem _ mem)) _).trans first

lemma apply_events (s : Session) (command : Command) :
    (s.apply command).display.events = s.display.events := by
  refine foldl_accept_kept ?_ (fun effect _ immediate d => ?_) s
  · rintro _ _ ⟨_, _, _, _, _, _, rfl⟩
    rfl
  · cases effect with
    | notify => exact (immediate rfl).elim
    | _ => rfl

/-- A message records no event; what the editor answers and has to wait goes to the end of the
queue. -/
lemma delivered (d : Delivery) :
    d.after.display.events = d.session.display.events ∧
      d.after.queue = d.session.queue ++ waiting d.answer ∧
        d.after.destroyed = d.session.destroyed := by
  obtain ⟨s, same, eq⟩ := after_eq d
  rw [eq]
  refine ⟨?_, ?_, ?_⟩
  · rw [apply_events, same.events]
  · rw [apply_queue, same.queue]
    rfl
  · rw [apply_destroyed, same.destroyed]

/-! ## Turns -/

/-- An effect whose turn has come records its event; what it brings about waits. -/
lemma perform_events (s : Session) (effect : Effect) :
    (s.perform effect).display.events = s.display.events ++ notices [effect] ∧
      (s.perform effect).queue = s.queue ++ waiting (answers (s.reported effect)) ∧
        (s.perform effect).destroyed = s.destroyed := by
  -- Only a slot that gets the focus is reported to the editor, which may answer.
  by_cases move : ∃ slot, effect = .focus slot
  · obtain ⟨slot, rfl⟩ := move
    have silent : notices [.focus slot] = [] := rfl
    unfold reported perform
    rw [silent, List.append_nil]
    dsimp only
    cases shown : s.handle? slot with
    | none => exact ⟨rfl, (List.append_nil _).symm, rfl⟩
    | some handle =>
      obtain ⟨events, queue, destroyed⟩ := delivered ⟨s.enact (.focus slot), .focused slot⟩
      have moved := enact_events s (.focus slot)
      rw [silent, List.append_nil] at moved
      obtain ⟨_, _, eq⟩ := enact_eq s (.focus slot)
      refine ⟨events.trans moved, ?_, ?_⟩
      · rw [answers_cons, answers, List.flatMap_nil, List.append_nil]
        refine queue.trans ?_
        rw [eq]
      · refine destroyed.trans ?_
        rw [eq]
  · have still : ∀ slot, effect ≠ .focus slot := fun slot eq => move ⟨slot, eq⟩
    have silent : s.reported effect = [] := by
      cases effect with
      | focus slot => exact (still slot rfl).elim
      | _ => rfl
    obtain ⟨_, _, eq⟩ := enact_eq s effect
    have events := enact_events s effect
    rw [perform_eq_enact still, silent]
    refine ⟨events, ?_, ?_⟩
    · rw [eq]
      exact (List.append_nil _).symm
    · rw [eq]

lemma foldl_perform_events (s : Session) (effects : List Effect) :
    (effects.foldl perform s).display.events = s.display.events ++ notices effects ∧
      (effects.foldl perform s).queue = s.queue ++ waiting (answers (s.performed effects)) ∧
        (effects.foldl perform s).destroyed = s.destroyed := by
  induction effects generalizing s with
  | nil => exact ⟨(List.append_nil _).symm, (List.append_nil _).symm, rfl⟩
  | cons effect rest ih =>
    obtain ⟨events, queue, destroyed⟩ := perform_events s effect
    obtain ⟨events', queue', destroyed'⟩ := ih (s.perform effect)
    refine ⟨?_, ?_, destroyed'.trans destroyed⟩
    · rw [List.foldl_cons, events', events, List.append_assoc]
      exact congrArg _ (notices_append [effect] rest).symm
    · rw [List.foldl_cons, queue', queue, List.append_assoc, performed, answers_append,
        waiting_append]

/-- A turn notifies of what waited when it began, and leaves what the editor has answered since. -/
lemma turn_events (running : s.destroyed = false) :
    s.turn.2.display.events = s.display.events ++ notices s.queue ∧
      s.turn.2.queue = waiting (answers s.turnDeliveries) ∧ s.turn.2.destroyed = false := by
  have eq : s.turnDeliveries = performed { s with queue := [] } s.queue :=
    if_neg (Bool.eq_false_iff.mp running)
  rw [turn_eq running, eq]
  obtain ⟨events, queue, destroyed⟩ := foldl_perform_events { s with queue := [] } s.queue
  exact ⟨events, queue, destroyed.trans running⟩

/-! ## Actions -/

/-- A relation between sessions and the deliveries that lead from one to the other, which holds of
messages and of turns, and of what follows one after the other. -/
structure Composes (R : Session → List Delivery → Session → Prop) : Prop where
  refl : ∀ s, R s [] s
  trans : ∀ {s s' s'' first rest}, R s first s' → R s' rest s'' → R s (first ++ rest) s''
  deliver : ∀ s message, R s [⟨s, message⟩] (s.dispatch message)
  turn : ∀ {s}, s.destroyed = false → R s s.turnDeliveries s.turn.2

namespace Composes

variable {R : Session → List Delivery → Session → Prop}

lemma sent (h : Composes R) (s : Session) (messages : List Message) :
    R s (s.sent messages) (messages.foldl (fun s message => s.dispatch message) s) := by
  induction messages generalizing s with
  | nil => exact h.refl s
  | cons message rest ih => exact h.trans (h.deliver s message) (ih _)

lemma turns (h : Composes R) (n : Nat) (s : Session) :
    R s (turnsDeliveries n s) (Session.turns n s) := by
  induction n generalizing s with
  | zero => exact h.refl s
  | succ n ih =>
    unfold turnsDeliveries Session.turns
    split
    · exact h.refl s
    · rename_i waits
      have running : s.destroyed = false := (Bool.or_eq_false_iff.mp (Bool.eq_false_iff.mpr waits)).2
      exact h.trans (h.turn running) (ih _)

lemma act (h : Composes R) (s : Session) {action : Action}
    (same : ∀ display, action ≠ .refresh display) : R s (s.deliveries action) (s.act action) := by
  cases action with
  | dispatch message => exact h.deliver s message
  | press k =>
    unfold deliveries Session.act press
    dsimp only
    split
    · exact h.refl s
    · exact h.sent s _
  | typeText text =>
    have typed : s.act (.typeText text) =
        (text.map Message.insertChar).foldl (fun s message => s.dispatch message) s := by
      rw [List.foldl_map]
      rfl
    rw [typed]
    exact h.sent s _
  | turn =>
    cases running : s.destroyed with
    | false => exact h.turn running
    | true =>
      have none : s.deliveries .turn = [] := if_pos running
      have still : s.act .turn = s := by simp only [Session.act, Session.turn, running, if_true]
      rw [none, still]
      exact h.refl s
  | settle => exact h.turns maxTurns s
  | load payload =>
    rw [act_load]
    exact h.deliver s _
  | refresh display => exact (same display rfl).elim

/-- A relation that composes holds of every history. -/
lemma history (h : Composes R) {actions : List Action}
    (same : ∀ action ∈ actions, ∀ display, action ≠ .refresh display) (s : Session) :
    R s (s.history actions) (actions.foldl Session.act s) := by
  induction actions generalizing s with
  | nil => exact h.refl s
  | cons action rest ih =>
    have first := h.act s (same action List.mem_cons_self)
    exact h.trans first (ih (fun action mem => same action (List.mem_cons_of_mem _ mem)) _)

end Composes

/-! ## Notifications -/

/-- The events that were recorded, and those that wait to be. -/
def ledger (s : Session) : List Event := s.display.events ++ notices s.queue

/-- A session that goes on with the events that deliveries brought. -/
structure Brings (s : Session) (ds : List Delivery) (s' : Session) : Prop where
  ledger : s'.ledger = s.ledger ++ notices (answers ds)
  destroyed : s'.destroyed = s.destroyed

lemma composes_brings : Composes Brings where
  refl _ := ⟨(List.append_nil _).symm, rfl⟩
  trans h h' := by
    refine ⟨?_, h'.destroyed.trans h.destroyed⟩
    rw [h'.ledger, h.ledger, answers_append, notices_append, List.append_assoc]
  deliver s message := by
    obtain ⟨events, queue, destroyed⟩ := delivered ⟨s, message⟩
    have after : (⟨s, message⟩ : Delivery).after = s.dispatch message := rfl
    rw [after] at events queue destroyed
    refine ⟨?_, destroyed⟩
    unfold Session.ledger
    rw [events, queue, notices_append, notices_waiting, answers_cons, answers, List.flatMap_nil,
      List.append_nil, List.append_assoc]
  turn running := by
    obtain ⟨events, queue, destroyed⟩ := turn_events running
    refine ⟨?_, destroyed.trans running.symm⟩
    unfold Session.ledger
    rw [events, queue, notices_waiting]

/-- Everything that an editor answers from the time when it was attached to a display. -/
def chronicle (e : Editor) (d : Display) (keymap : Keymap) (actions : List Action) : List Delivery :=
  let s : Session := { editor := e, display := d, keymap }
  ⟨s, s.attachment⟩ :: (start e d keymap).history actions

/-- Whatever happens to a session on one display, the events that the display has recorded and those
that wait are all that the editor has ever told to notify, in the order in which it did. A turn
notifies of all that waited when it began, and all that has to wait since then still waits after it. -/
theorem notified_in_order {actions : List Action} (e : Editor) (d : Display) (keymap : Keymap)
    (same : ∀ action ∈ actions, ∀ display, action ≠ .refresh display) :
    let s := actions.foldl act (start e d keymap)
    s.display.events ++ notices s.queue =
        d.events ++ notices (answers (chronicle e d keymap actions)) ∧
      s.turn.1 = s.queue.length ∧
      s.turn.2.display.events = s.display.events ++ notices s.queue ∧
      s.turn.2.queue = waiting (answers s.turnDeliveries) := by
  intro s
  have attached : Brings { editor := e, display := d, keymap }
      [⟨{ editor := e, display := d, keymap }, attachment { editor := e, display := d, keymap }⟩]
      (start e d keymap) := by
    have started := composes_brings.deliver { editor := e, display := d, keymap }
      (attachment { editor := e, display := d, keymap })
    rw [← attach_eq] at started
    exact started
  have brings := composes_brings.trans attached (composes_brings.history same (start e d keymap))
  have running : s.destroyed = false := brings.destroyed
  obtain ⟨events, queue, _⟩ := turn_events running
  refine ⟨?_, ?_, events, queue⟩
  · have fresh : Session.ledger { editor := e, display := d, keymap } = d.events :=
      List.append_nil _
    have ledger := brings.ledger
    rw [fresh] at ledger
    exact ledger
  · unfold turn
    rw [if_neg (Bool.eq_false_iff.mp running)]

/-- A column is typed, and after a turn the start of an operator. The completion of the column has been
notified of, that the column is committed waits. -/
theorem notified_in_order_typed :
    let actions : List Action := [.typeText ['a'], .turn, .typeText ['=']]
    let s := actions.foldl act (start (Editor.new {} .filter) {} {})
    s.display.events = [.complete ⟨['a'], some .column, none, none, none⟩] ∧
      s.queue = [.notify .resetCompletion] ∧
      notices (answers (chronicle (Editor.new {} .filter) {} {} actions)) =
        s.display.events ++ notices s.queue ∧
      s.turn.2.queue = [] := by
  intro actions s
  have same : ∀ action ∈ actions, ∀ display, action ≠ .refresh display := by
    simp only [actions, List.mem_cons, List.not_mem_nil, or_false]
    rintro _ (rfl | rfl | rfl) _ <;> exact nofun
  obtain ⟨ledger, _⟩ := notified_in_order (Editor.new {} .filter) {} {} same
  exact ⟨by decide, by decide, ledger.symm, by decide⟩

end Session
end FilterEditor
