import FilterEditor.Proofs.Delivery
import FilterEditor.Proofs.Guise

/-!
# Keeping the slots up

A session carries out what its editor answers, so the guise of its display changes as the answers say
(`dispatch_guise`). A relation between guises and editors that messages keep, apart from bad ones, is
therefore kept by a session just as long as no bad message is delivered: `relates_history_iff`.
-/

namespace FilterEditor

/-- Whether a message does anything but load slots that a display shows already. -/
def Message.isPlain : Message → Bool
  | .load (.slots _) => false
  | _ => true

/-- A column of a display. -/
def Column.on {α : Type} (column : Column α) (d : Display) : List α := d.slots.map column.read

/-- The guise of a display. -/
def Display.guise (d : Display) : Guise where
  texts := Column.texts.on d
  marks := Column.marks.on d
  messages := Column.messages.on d
  input := d.inputValue
  inputMessage := d.inputValidity

namespace Session

/-- An action that stays on the display and loads no slots that it shows already. -/
def Action.isPlain : Action → Bool
  | .refresh _ => false
  | .load payload => (Message.load payload).isPlain
  | .dispatch message => message.isPlain
  | _ => true

/-- A session that knows the term slots of its display by handles of their own. -/
structure Named (s : Session) : Prop extends Aligned s where
  terms : ∀ handle ∈ s.handles, handle ≠ Display.inputHandle

variable {s s' : Session} {effect : Effect} {message : Message} {index : Nat}

/-! ## Effects -/

section Columns

variable {α : Type} {column : Column α}

lemma length_column (column : Column α) (h : s.Aligned) :
    (column.on s.display).length = s.handles.length := by
  rw [← h.handles, Column.on, Display.slotHandles, List.length_map, List.length_map]

lemma column_atHandle {change : DisplaySlot → DisplaySlot} (h : s.Aligned)
    (touch : effect.touch? = some (index, change)) :
    column.on (s.atHandle s.handles[index]? fun handle d => d.modifySlot handle change).display =
      column.write (column.on s.display) effect := by
  have nodup : (s.display.slots.map (·.handle)).Nodup := h.sound.nodup
  cases found : s.handles[index]? with
  | none =>
    -- Without a handle there is no slot, and what is written there is lost on both sides.
    have behind : (column.on s.display).length ≤ index :=
      length_column column h ▸ List.getElem?_eq_none_iff.mp found
    rcases column.touched effect index change touch with ⟨item, writes, _⟩ | ⟨writes, _⟩
    · rw [Column.write, writes]
      exact (List.set_eq_of_length_le behind).symm
    · rw [Column.write, writes]
      rfl
  | some handle =>
    rw [← h.handles] at found
    rcases column.touched effect index change touch with ⟨item, writes, shows⟩ | ⟨writes, same⟩
    · rw [Column.write, writes]
      exact map_key_eq_set nodup found shows
    · rw [Column.write, writes]
      refine (List.map_map ..).trans (List.map_congr_left fun slot _ => ?_)
      rw [Function.comp_apply]
      split
      · exact same slot
      · rfl

/-- At the handle of a term slot it does not matter what would happen at the trailing input. -/
lemma atHandle_congr {first second : Nat → Display → Display} (h : s.Named)
    (same : ∀ handle d, handle ≠ Display.inputHandle → first handle d = second handle d) :
    s.atHandle s.handles[index]? first = s.atHandle s.handles[index]? second := by
  cases found : s.handles[index]? with
  | none => rfl
  | some handle =>
    have eq := same handle s.display (h.terms handle (List.mem_of_getElem? found))
    simp only [atHandle, eq]

/-- An effect that changes a term slot is carried out at its handle. -/
lemma enact_touch {change : DisplaySlot → DisplaySlot} (h : s.Named)
    (touch : effect.touch? = some (index, change)) (stays : effect.changesSlots = false) :
    s.enact effect = s.atHandle s.handles[index]? fun handle d => d.modifySlot handle change := by
  cases effect with
  | renderTerm => cases stays
  | updateTerm | setSelected =>
    cases touch
    rfl
  | writeValue slot | setValidity slot =>
    cases slot <;> cases touch
    exact atHandle_congr h fun _ _ ne => if_neg ne
  | _ => cases touch

/-- A slot is rendered again where there is one, and added at the end where there is none. -/
lemma column_renderTerm (h : s.Aligned) (index : Nat) (t : Term) :
    column.on (s.enact (.renderTerm index t)).display =
      column.after (column.on s.display) (.renderTerm index t) := by
  have length := length_column column h
  simp only [enact, renderTerm, Column.after, length]
  cases found : s.handles[index]? with
  | some handle =>
    have touched : column.on (s.atHandle s.handles[index]? fun handle d =>
          d.updateTerm handle t).display =
        column.write (column.on s.display) (.renderTerm index t) := column_atHandle h rfl
    rw [found] at touched
    rw [if_pos (List.getElem?_eq_some_iff.mp found).1]
    exact touched
  | none =>
    have behind : s.handles.length ≤ index := List.getElem?_eq_none_iff.mp found
    have slots : s.display.slots.length ≤ index := by
      rw [← length, Column.on, List.length_map] at behind
      exact behind
    rw [if_neg (Nat.not_lt_of_le behind)]
    simp only [Column.on, Display.render, List.map_append, List.map_cons, column.read_fresh]
    rw [List.take_of_length_le slots, List.drop_eq_nil_of_le slots]
    rfl

lemma column_removeSlot (h : s.Aligned) (index : Nat) :
    column.on (s.enact (.removeSlot index)).display = (column.on s.display).eraseIdx index := by
  simp only [enact, removeSlot]
  cases found : s.handles[index]? with
  | some handle =>
    rw [← h.handles] at found
    have slots : (s.display.remove handle).slots = s.display.slots.eraseIdx index :=
      filter_key_eq_eraseIdx h.sound.nodup found
    simp only [Column.on, slots, List.eraseIdx_map]
  | none =>
    have behind : (column.on s.display).length ≤ index :=
      length_column column h ▸ List.getElem?_eq_none_iff.mp found
    exact (List.eraseIdx_of_length_le behind).symm

lemma enact_column (h : s.Named) (effect : Effect) :
    column.on (s.enact effect).display = column.after (column.on s.display) effect := by
  cases effect with
  | renderTerm index t => exact column_renderTerm h.toAligned index t
  | removeSlot index => exact column_removeSlot h.toAligned index
  | updateTerm | setSelected =>
    rw [enact_touch h rfl rfl]
    exact column_atHandle h.toAligned rfl
  | writeValue slot | setValidity slot =>
    cases slot with
    | input => exact (Column.after_untouched rfl rfl).symm
    | term index =>
      rw [enact_touch h rfl rfl]
      exact column_atHandle h.toAligned rfl
  | reportValidity slot | focus slot =>
    rw [Column.after_untouched rfl rfl]
    simp only [enact]
    cases s.handle? slot <;> rfl
  | _ => exact (Column.after_untouched rfl rfl).symm

end Columns

/-- The handles of term slots stay what they are, and new ones are never that of the trailing input. -/
lemma Named.enact (h : s.Named) (effect : Effect) :
    ∀ handle ∈ (s.enact effect).handles, handle ≠ Display.inputHandle := by
  have atHandle : ∀ handle change, (s.atHandle handle change).handles = s.handles := by
    intro handle change
    cases handle <;> rfl
  cases effect with
  | renderTerm index t =>
    simp only [Session.enact, renderTerm]
    split
    · exact h.terms
    · intro handle mem
      rcases List.mem_append.mp mem with mem | mem
      · exact h.terms handle (List.mem_of_mem_take mem)
      · rcases List.mem_cons.mp mem with rfl | mem
        · exact Nat.succ_ne_zero _
        · exact h.terms handle (List.mem_of_mem_drop mem)
  | removeSlot index =>
    simp only [Session.enact, removeSlot]
    split
    · exact h.terms
    · exact fun handle mem => h.terms handle (List.mem_of_mem_eraseIdx mem)
  | updateTerm | writeValue | setSelected | setValidity | reportValidity | focus =>
    simp only [Session.enact, atHandle]
    exact h.terms
  | _ => exact h.terms

lemma enact_guise (h : s.Named) (effect : Effect) :
    (s.enact effect).display.guise = s.display.guise.after effect := by
  have input : (s.enact effect).display.inputValue = (s.display.guise.after effect).input ∧
      (s.enact effect).display.inputValidity = (s.display.guise.after effect).inputMessage := by
    cases effect with
    | renderTerm =>
      simp only [Session.enact, renderTerm]
      split <;> exact ⟨rfl, rfl⟩
    | removeSlot =>
      simp only [Session.enact, removeSlot]
      split <;> exact ⟨rfl, rfl⟩
    | updateTerm index | setSelected index =>
      rw [enact_touch h rfl rfl]
      cases s.handles[index]? <;> exact ⟨rfl, rfl⟩
    | writeValue slot | setValidity slot =>
      cases slot with
      | input => exact ⟨rfl, rfl⟩
      | term index =>
        rw [enact_touch h rfl rfl]
        cases s.handles[index]? <;> exact ⟨rfl, rfl⟩
    | reportValidity slot | focus slot =>
      simp only [Session.enact]
      cases s.handle? slot <;> exact ⟨rfl, rfl⟩
    | _ => exact ⟨rfl, rfl⟩
  unfold Display.guise
  rw [enact_column h, enact_column h, enact_column h, input.1, input.2]
  rfl

/-! ## Messages -/

lemma accept_guise (h : s.Named) (effect : Effect) :
    (s.accept effect).Named ∧ (s.accept effect).display.guise = s.display.guise.after effect := by
  have aligned := (accept_follows h.toAligned effect).aligned
  unfold accept at *
  split
  · rename_i deferred
    rw [if_pos deferred] at aligned
    exact ⟨⟨aligned, h.terms⟩, (Guise.after_deferred deferred).symm⟩
  · rename_i immediate
    rw [if_neg immediate] at aligned
    exact ⟨⟨aligned, h.enact effect⟩, enact_guise h effect⟩

lemma apply_guise (effects : List Effect) (h : s.Named) :
    (s.apply (Command.ofEffects effects)).Named ∧
      (s.apply (Command.ofEffects effects)).display.guise = s.display.guise.replay effects := by
  unfold apply
  rw [Command.effects_ofEffects]
  induction effects generalizing s with
  | nil => exact ⟨h, rfl⟩
  | cons effect rest ih =>
    obtain ⟨named, first⟩ := accept_guise h effect
    obtain ⟨named', last⟩ := ih named
    refine ⟨named', ?_⟩
    rw [List.foldl_cons, last, first]
    rfl

/-- A message that takes over no slots is carried out as the editor answers it. -/
lemma dispatch_plain (running : s.destroyed = false) (plain : message.isPlain) :
    s.dispatch message =
      apply (Command.ofEffects (s.editor.respond message).effects)
        { s with editor := (s.editor.respond message).editor } := by
  by_cases loading : message.scope = .loading
  · obtain ⟨payload, rfl⟩ := Message.load_of_scope loading
    have adopted : s.adopted? payload = .ok none := by
      cases payload with
      | slots => cases plain
      | _ => rfl
    have load : s.load payload = (s.editor.load payload).map fun change =>
        apply (Command.ofEffects change.effects) { s with editor := change.editor } := by
      unfold load
      rw [if_neg (Bool.eq_false_iff.mp running), adopted]
      cases s.editor.load payload <;> rfl
    rw [dispatch_load running, act, load, Editor.respond, Editor.loadOrIgnore]
    cases s.editor.load payload <;> rfl
  · exact dispatch_eq running loading

lemma dispatch_guise (running : s.destroyed = false) (h : s.Named) (plain : message.isPlain) :
    (s.dispatch message).Named ∧
      (s.dispatch message).editor = (s.editor.respond message).editor ∧
        (s.dispatch message).display.guise =
          s.display.guise.replay (s.editor.respond message).effects := by
  have edited : Named { s with editor := (s.editor.respond message).editor } :=
    ⟨⟨h.sound, h.handles⟩, h.terms⟩
  rw [dispatch_plain running plain]
  obtain ⟨named, guise⟩ := apply_guise (s.editor.respond message).effects edited
  exact ⟨named, apply_editor _ _, guise⟩

/-- A payload that takes over no slots is refused, or its terms are rendered in place of all others. -/
lemma respond_load_guise {R : Guise → Editor → Prop} {g : Guise} {e : Editor} {payload : Payload}
    (plain : (Message.load payload).isPlain)
    (reload : ∀ terms, R (g.replay (e.removalEffects ++ (e.restore terms).renderEffects ++
      (e.restore terms).settledEffects)) (e.restore terms)) (h : R g e) :
    R (g.replay (e.respond (.load payload)).effects) (e.respond (.load payload)).editor := by
  have hidden : Editor.isRendered payload = false := by
    cases payload with
    | slots => cases plain
    | _ => rfl
  cases loaded : e.load payload with
  | error =>
    simp only [Editor.respond, Editor.loadOrIgnore, loaded]
    exact h
  | ok change =>
    obtain ⟨terms, _, _, rfl⟩ := Editor.load_eq_ok loaded
    simp only [Editor.respond, Editor.loadOrIgnore, loaded, hidden, Bool.false_eq_true, if_false]
    exact reload terms

/-! ## Attaching -/

/-- Whatever a session does first, its slots look like new ones for the terms of its editor. -/
lemma start_guise {d : Display} (e : Editor) (blank : d.Blank) (keymap : Keymap) :
    (start e d keymap).Named ∧ (start e d keymap).editor = e.restore e.terms.terms ∧
      (start e d keymap).display.guise = .fresh e.terms.terms d.inputValidity := by
  have slots : d.slotHandles = [] := by
    rw [Display.slotHandles, blank.slots]
    rfl
  have named : Named { editor := e, display := d, keymap } := by
    refine ⟨⟨?_, slots⟩, List.forall_mem_nil _⟩
    constructor <;> simp [slots, blank.rendered]
  have bare : d.guise = ⟨[], [], [], d.inputValue, d.inputValidity⟩ := by
    simp only [Display.guise, Column.on, blank.slots]
    rfl
  -- Either way the message renders the terms that there are, on a display that shows none.
  have message : ∃ message : Message, attachment { editor := e, display := d, keymap } = message ∧
      message.isPlain ∧ (e.respond message).editor = e.restore e.terms.terms ∧
        (e.respond message).effects = (e.restore e.terms.terms).renderEffects ++
          (e.restore e.terms.terms).settledEffects := by
    cases some : e.hasTerms with
    | true => exact ⟨.refresh, if_pos some, rfl, rfl, rfl⟩
    | false =>
      have none : e.terms.terms = [] := by simpa [Editor.hasTerms, Sequence.isEmpty] using some
      have removals : e.removalEffects = [] := by
        simp [Editor.removalEffects, Sequence.length, none]
      have reset : attachment { editor := e, display := d, keymap } = .reset := by
        simp [attachment, some, Display.prerendered, blank.rendered]
      have effects : (e.respond .reset).effects =
          e.removalEffects ++ (e.restore []).settledEffects := rfl
      refine ⟨.reset, reset, rfl, none ▸ rfl, ?_⟩
      rw [effects, removals, none]
      rfl
  obtain ⟨message, sent, plain, editor, effects⟩ := message
  obtain ⟨named', editor', guise⟩ :=
    dispatch_guise (s := { editor := e, display := d, keymap }) rfl named plain
  rw [start, attach_eq, sent]
  refine ⟨named', editor'.trans editor, guise.trans ?_⟩
  rw [effects]
  exact bare ▸ Guise.replay_rendered ..

/-! ## Histories -/

/-- A session in step whose slots can be told by their handles. -/
structure Tended (s : Session) : Prop where
  inStep : s.InStep
  terms : ∀ handle ∈ s.handles, handle ≠ Display.inputHandle

lemma Tended.named (h : s.Tended) : s.Named := ⟨h.inStep.aligned, h.terms⟩

lemma Tended.dispatch (h : s.Tended) (plain : message.isPlain) : (s.dispatch message).Tended := by
  have allowed : s.Allows (.dispatch message) := by
    cases message with
    | load payload =>
      cases payload with
      | slots => cases plain
      | _ => trivial
    | _ => trivial
  exact ⟨h.inStep.act allowed, (dispatch_guise h.inStep.running h.named plain).1.terms⟩

/-- What waits changes nothing of the guise. -/
lemma Tended.enact (h : s.Tended) (deferred : effect.isDeferred) :
    (s.enact effect).Tended ∧ (s.enact effect).editor = s.editor ∧
      (s.enact effect).display.guise = s.display.guise := by
  obtain ⟨_, _, eq⟩ := enact_eq s effect
  refine ⟨⟨h.inStep.enact deferred, h.named.enact effect⟩, ?_, ?_⟩
  · rw [eq]
  · rw [enact_guise h.named, Guise.after_deferred deferred]

/-- A session whose display relates to its editor. -/
def Relates (R : Guise → Editor → Prop) (s : Session) : Prop := R s.display.guise s.editor

variable {R : Guise → Editor → Prop} {Bad : Editor → Message → Prop}

/-- A session that goes on in relation to its editor just as long as no delivery is bad. -/
def Tracks (R : Guise → Editor → Prop) (Bad : Editor → Message → Prop) (s : Session)
    (ds : List Delivery) (s' : Session) : Prop :=
  s.Tended → (∀ d ∈ ds, d.message.isPlain) →
    s'.Tended ∧ (s.Relates R →
      ((∀ d ∈ ds, d.after.Relates R) → s'.Relates R) ∧
        ((∀ d ∈ ds, d.after.Relates R) ↔ ∀ d ∈ ds, ¬ Bad d.session.editor d.message))

namespace Tracks

lemma quiet (same : s.Tended → s'.Tended ∧ s'.editor = s.editor ∧ s'.display.guise = s.display.guise) :
    Tracks R Bad s [] s' := by
  intro h _
  obtain ⟨tended, editor, guise⟩ := same h
  refine ⟨tended, fun related => ⟨fun _ => ?_, ?_⟩⟩
  · unfold Relates
    rw [editor, guise]
    exact related
  · simp only [List.not_mem_nil, false_implies, implies_true]

lemma trans {s'' : Session} {first rest : List Delivery} (h : Tracks R Bad s first s')
    (h' : Tracks R Bad s' rest s'') : Tracks R Bad s (first ++ rest) s'' := by
  intro tended plain
  obtain ⟨tended, tracks⟩ := h tended fun d mem => plain d (List.mem_append_left _ mem)
  obtain ⟨tended', tracks'⟩ := h' tended fun d mem => plain d (List.mem_append_right _ mem)
  refine ⟨tended', fun related => ?_⟩
  obtain ⟨lasts, calm⟩ := tracks related
  simp only [List.forall_mem_append]
  refine ⟨fun shows => (tracks' (lasts shows.1)).1 shows.2, ?_⟩
  constructor
  · intro shows
    exact ⟨calm.mp shows.1, (tracks' (lasts shows.1)).2.mp shows.2⟩
  · intro none
    have shows := calm.mpr none.1
    exact ⟨shows, (tracks' (lasts shows)).2.mpr none.2⟩

/-- What waits tells the editor at most which slot has the focus now. -/
lemma performed (composes : ∀ s message, Tracks R Bad s [⟨s, message⟩] (s.dispatch message))
    {effects : List Effect} (deferred : ∀ effect ∈ effects, effect.isDeferred) (s : Session) :
    Tracks R Bad s (s.performed effects) (effects.foldl perform s) := by
  induction effects generalizing s with
  | nil => exact quiet fun h => ⟨h, rfl, rfl⟩
  | cons effect rest ih =>
    have waits := deferred effect List.mem_cons_self
    have enacted : Tracks R Bad s [] (s.enact effect) := quiet fun h => h.enact waits
    have first : Tracks R Bad s (s.reported effect) (s.perform effect) := by
      cases effect with
      | focus slot =>
        unfold reported perform
        dsimp only
        cases s.handle? slot with
        | none => exact quiet fun h => ⟨h, rfl, rfl⟩
        | some => exact enacted.trans (composes _ _)
      | _ => exact enacted
    exact first.trans (ih (fun effect mem => deferred effect (List.mem_cons_of_mem _ mem)) _)

end Tracks

/-- Where the editor keeps a relation apart from bad messages, a session does apart from bad
deliveries. -/
lemma composes_tracks
    (step : ∀ g e message, e.WellFormed → message.isPlain → R g e →
      (R (g.replay (e.respond message).effects) (e.respond message).editor ↔ ¬ Bad e message)) :
    Composes (Tracks R Bad) := by
  have deliver : ∀ s message, Tracks R Bad s [⟨s, message⟩] (s.dispatch message) := by
    intro s message h plain
    have plain := plain _ (List.mem_singleton_self _)
    obtain ⟨_, editor, guise⟩ := dispatch_guise h.inStep.running h.named plain
    refine ⟨h.dispatch plain, fun related => ?_⟩
    have kept := step _ _ message h.inStep.sound plain related
    rw [← guise, ← editor] at kept
    simp only [List.forall_mem_singleton]
    exact ⟨id, kept⟩
  refine ⟨fun s => .quiet fun h => ⟨h, rfl, rfl⟩, .trans, deliver, ?_⟩
  intro s running h
  have emptied : Tracks R Bad s [] { s with queue := [] } := by
    refine .quiet fun h => ⟨⟨⟨running, nofun, h.inStep.sound, ?_, h.inStep.shown⟩, h.terms⟩, rfl, rfl⟩
    exact ⟨h.inStep.aligned.sound, h.inStep.aligned.handles⟩
  have turned := emptied.trans (.performed deliver h.inStep.deferred _)
  have eq : s.turnDeliveries = performed { s with queue := [] } s.queue :=
    if_neg (Bool.eq_false_iff.mp running)
  rw [turn_eq running, eq]
  exact turned h

/-! ## Plain actions -/

lemma plain_sent {messages : List Message} (plain : ∀ message ∈ messages, message.isPlain)
    (s : Session) : ∀ d ∈ s.sent messages, d.message.isPlain := by
  induction messages generalizing s with
  | nil => exact List.forall_mem_nil _
  | cons message rest ih =>
    rw [sent, List.forall_mem_cons]
    exact ⟨plain message List.mem_cons_self,
      ih (fun message mem => plain message (List.mem_cons_of_mem _ mem)) _⟩

lemma plain_performed (s : Session) (effects : List Effect) :
    ∀ d ∈ s.performed effects, d.message.isPlain := by
  induction effects generalizing s with
  | nil => exact List.forall_mem_nil _
  | cons effect rest ih =>
    rw [performed, List.forall_mem_append]
    refine ⟨?_, ih _⟩
    intro d mem
    unfold reported at mem
    split at mem
    · split at mem
      · cases mem
      · cases List.mem_singleton.mp mem
        rfl
    · cases mem

lemma plain_turn (s : Session) : ∀ d ∈ s.turnDeliveries, d.message.isPlain := by
  unfold turnDeliveries
  split
  · exact List.forall_mem_nil _
  · exact plain_performed _ _

lemma plain_turns (n : Nat) (s : Session) : ∀ d ∈ turnsDeliveries n s, d.message.isPlain := by
  induction n generalizing s with
  | zero => exact List.forall_mem_nil _
  | succ n ih =>
    unfold turnsDeliveries
    split
    · exact List.forall_mem_nil _
    · exact List.forall_mem_append.mpr ⟨plain_turn s, ih _⟩

lemma plain_deliveries {action : Action} (plain : action.isPlain) (s : Session) :
    ∀ d ∈ s.deliveries action, d.message.isPlain := by
  cases action with
  | dispatch message => exact List.forall_mem_singleton.mpr plain
  | press k =>
    unfold deliveries
    dsimp only
    split
    · exact List.forall_mem_nil _
    · refine plain_sent (fun message mem => ?_) s
      have editing := scope_of_keyMessages mem
      cases message with
      | load => exact (editing rfl).elim
      | _ => rfl
  | typeText text =>
    refine plain_sent (fun message mem => ?_) s
    obtain ⟨_, _, rfl⟩ := List.mem_map.mp mem
    rfl
  | turn => exact plain_turn s
  | settle => exact plain_turns maxTurns s
  | load payload => exact List.forall_mem_singleton.mpr plain
  | refresh => cases plain

lemma plain_history {actions : List Action} (plain : ∀ action ∈ actions, action.isPlain)
    (s : Session) : ∀ d ∈ s.history actions, d.message.isPlain := by
  induction actions generalizing s with
  | nil => exact List.forall_mem_nil _
  | cons action rest ih =>
    rw [history, List.forall_mem_append]
    exact ⟨plain_deliveries (plain action List.mem_cons_self) s,
      ih (fun action mem => plain action (List.mem_cons_of_mem _ mem)) _⟩

variable (Bad) in
/-- A session on a blank display relates to its editor all along just if no bad message is
delivered. -/
lemma relates_history_iff {e : Editor} {d : Display} (keymap : Keymap) (actions : List Action)
    (step : ∀ g e message, e.WellFormed → message.isPlain → R g e →
      (R (g.replay (e.respond message).effects) (e.respond message).editor ↔ ¬ Bad e message))
    (initial : R (.fresh e.terms.terms d.inputValidity) (e.restore e.terms.terms))
    (reachable : e.Reachable) (blank : d.Blank) (plain : ∀ action ∈ actions, action.isPlain) :
    (start e d keymap).Relates R ∧
      ((∀ delivery ∈ (start e d keymap).history actions, delivery.after.Relates R) ∧
          (actions.foldl act (start e d keymap)).Relates R ↔
        ∀ delivery ∈ (start e d keymap).history actions,
          ¬ Bad delivery.session.editor delivery.message) := by
  obtain ⟨named, editor, guise⟩ := start_guise e blank keymap
  have tended : (start e d keymap).Tended :=
    ⟨inStep_attach rfl rfl rfl reachable.wellFormed blank, named.terms⟩
  have related : (start e d keymap).Relates R := by
    unfold Relates
    rw [editor, guise]
    exact initial
  have same : ∀ action ∈ actions, ∀ display, action ≠ .refresh display := by
    rintro _ mem display rfl
    cases plain _ mem
  -- The relation holds at the start, so the first bad delivery is the first time it fails.
  obtain ⟨_, tracks⟩ :=
    (composes_tracks step).history same (start e d keymap) tended (plain_history plain _)
  obtain ⟨lasts, calm⟩ := tracks related
  refine ⟨related, ?_⟩
  constructor
  · exact fun shows => calm.mp shows.1
  · exact fun none => ⟨calm.mpr none, lasts (calm.mpr none)⟩

/-- An editor for a column with an operator behind it. -/
def columnAndOperator : Editor := (Editor.new {} .filter).restore [.column ['a'], .operator ['=']]

lemma reachable_columnAndOperator : columnAndOperator.Reachable := by
  have accepted : Editor.ofTerms {} .filter [.column ['a'], .operator ['=']] =
      .ok columnAndOperator := rfl
  exact ⟨_, [], .ofTerms accepted, rfl⟩

lemma blank_empty : ({} : Display).Blank := ⟨rfl, rfl⟩

end Session
end FilterEditor
