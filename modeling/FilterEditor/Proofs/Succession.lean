import FilterEditor.Proofs.Settling

/-!
# Handles in the course of time

The handles of a session come and go with its terms. Whatever happens on one display, a handle that was
given up is not taken up again, those that are kept stay in their order, and new ones stand behind
them: the later session `Succeeds` the earlier one. `Succession.act` says so for every action, and
transitivity for runs. No more is asked for than a display that numbers its slots; in particular, the
slots that the display shows besides those of the session may be anything.
-/

namespace FilterEditor

namespace Display

/-- A display whose handles are given out in ascending order. -/
structure Numbered (d : Display) : Prop where
  given : ∀ handle ∈ d.slotHandles, handle ≤ d.lastHandle
  rendered : (d.rendered.map (·.1)).Pairwise (· < ·)
  rendered_given : ∀ handle ∈ d.rendered.map (·.1), handle ≤ d.lastHandle

variable {d d' : Display} {handle : Nat}

lemma Alike.refl (d : Display) : Alike d d := ⟨rfl, rfl, rfl⟩

lemma mem_prerenderedHandles :
    handle ∈ d.prerenderedHandles ↔ handle ∈ d.rendered.map (·.1) ∧ handle ∈ d.slotHandles := by
  constructor
  · intro mem
    exact ⟨(List.filter_sublist.map _).subset mem, mem_slotHandles_of_prerendered mem⟩
  · rintro ⟨rendered, shown⟩
    obtain ⟨slot, mem, rfl⟩ := List.mem_map.mp rendered
    exact List.mem_map_of_mem (List.mem_filter.mpr ⟨mem, slot?_isSome_iff.mpr shown⟩)

lemma mem_slotHandles_render {t : Term} {index : Nat} :
    handle ∈ (d.render t index).2.slotHandles ↔
      handle = d.lastHandle + 1 ∨ handle ∈ d.slotHandles := by
  have whole : handle ∈ d.slotHandles ↔
      handle ∈ (d.slots.take index).map (·.handle) ∨ handle ∈ (d.slots.drop index).map (·.handle) := by
    rw [← List.mem_append, ← List.map_append, List.take_append_drop]
    rfl
  rw [whole]
  simp only [render, slotHandles, List.map_append, List.map_cons, List.mem_append, List.mem_cons]
  tauto

lemma mem_slotHandles_filter {p : Nat → Bool}
    (slots : d'.slots = d.slots.filter fun slot => p slot.handle) :
    handle ∈ d'.slotHandles ↔ handle ∈ d.slotHandles ∧ p handle := by
  have filtered : d'.slotHandles = d.slotHandles.filter p := by
    rw [slotHandles, slots, slotHandles, List.filter_map]
    rfl
  rw [filtered, List.mem_filter]

end Display

namespace Session

/-- A session with its handles in order. Of the slots that were rendered before it came, it has taken
over all or none. -/
structure Filed (s : Session) : Prop where
  running : s.destroyed = false
  numbered : s.display.Numbered
  ascending : s.handles.Pairwise (· < ·)
  shown : ∀ handle ∈ s.handles, handle ∈ s.display.slotHandles
  apart : (∀ handle ∈ s.display.prerenderedHandles, handle ∈ s.handles) ∨
    ∀ handle ∈ s.display.prerenderedHandles, handle ∉ s.handles

/-- A session later on, with the same display. -/
structure Succeeds (s s' : Session) : Prop where
  lastHandle : s.display.lastHandle ≤ s'.display.lastHandle
  /-- A slot that was there once is either still there or gone for good. -/
  gone : ∀ handle ∈ s'.display.slotHandles,
    handle ≤ s.display.lastHandle → handle ∈ s.display.slotHandles
  /-- As long as its slot is there, a handle is not given up. -/
  kept : ∀ handle ∈ s.handles, handle ∈ s'.display.slotHandles → handle ∈ s'.handles
  /-- Nothing new gets in front of a handle that is kept. -/
  behind : ∀ handle ∈ s.handles, handle ∈ s'.handles →
    ∀ other ∈ s'.handles, other < handle → other ∈ s.handles

/-- What a session comes to in the course of time. -/
def Succession (s s' : Session) : Prop := s.Filed → s'.Filed ∧ s.Succeeds s'

/-- A session with the same slots and the same slot in focus. -/
structure Stays (s s' : Session) : Prop where
  destroyed : s'.destroyed = s.destroyed
  handles : s'.handles = s.handles
  alike : Display.Alike s.display s'.display
  focused : s'.display.focused = s.display.focused

variable {s s' s'' : Session} {effect : Effect} {index : Nat}

lemma Filed.nodup (h : s.Filed) : s.handles.Nodup := h.ascending.imp Nat.ne_of_lt

lemma Filed.given (h : s.Filed) {handle : Nat} (mem : handle ∈ s.handles) :
    handle ≤ s.display.lastHandle :=
  h.numbered.given handle (h.shown handle mem)

namespace Succession

lemma refl (s : Session) : Succession s s :=
  fun h => ⟨h, Nat.le_refl _, fun _ mem _ => mem, fun _ mem _ => mem, fun _ _ _ _ mem _ => mem⟩

lemma trans (first : Succession s s') (second : Succession s' s'') : Succession s s'' := by
  intro h
  obtain ⟨h', first⟩ := first h
  obtain ⟨h'', second⟩ := second h'
  -- A slot of the first session that the last one shows was there all the time.
  have between : ∀ handle ∈ s.handles, handle ∈ s''.display.slotHandles → handle ∈ s'.handles := by
    intro handle mem shown
    exact first.kept handle mem (second.gone handle shown (Nat.le_trans (h.given mem) first.lastHandle))
  refine ⟨h'', Nat.le_trans first.lastHandle second.lastHandle, ?_, ?_, ?_⟩
  · intro handle shown le
    exact first.gone handle (second.gone handle shown (Nat.le_trans le first.lastHandle)) le
  · intro handle mem shown
    exact second.kept handle (between handle mem shown) shown
  · intro handle mem mem'' other mem_other lt
    have mem' := between handle mem (h''.shown handle mem'')
    exact first.behind handle mem mem' other (second.behind handle mem' mem'' other mem_other lt) lt

/-- What every step comes to, steps one after the other come to. -/
lemma foldl {α : Type} {step : Session → α → Session} (each : ∀ s a, Succession s (step s a))
    (items : List α) (s : Session) : Succession s (items.foldl step s) := by
  induction items generalizing s with
  | nil => exact refl s
  | cons a rest ih => exact (each s a).trans (ih _)

/-- Where the slots stay, so do the handles. -/
lemma of_alike (destroyed : s'.destroyed = s.destroyed) (handles : s'.handles = s.handles)
    (alike : Display.Alike s.display s'.display) : Succession s s' := by
  intro h
  have prerendered : ∀ handle, handle ∈ s'.display.prerenderedHandles ↔
      handle ∈ s.display.prerenderedHandles := by
    intro handle
    rw [Display.mem_prerenderedHandles, Display.mem_prerenderedHandles, alike.rendered, alike.handles]
  refine ⟨⟨destroyed.trans h.running, ⟨?_, ?_, ?_⟩, ?_, ?_, ?_⟩, ?_, ?_, ?_, ?_⟩
  · rw [alike.handles, alike.lastHandle]
    exact h.numbered.given
  · rw [alike.rendered]
    exact h.numbered.rendered
  · rw [alike.rendered, alike.lastHandle]
    exact h.numbered.rendered_given
  · rw [handles]
    exact h.ascending
  · rw [handles, alike.handles]
    exact h.shown
  · simp only [prerendered, handles]
    exact h.apart
  · exact Nat.le_of_eq alike.lastHandle.symm
  · rw [alike.handles]
    exact fun _ mem _ => mem
  · rw [handles]
    exact fun _ mem _ => mem
  · rw [handles]
    exact fun _ _ _ _ mem _ => mem

lemma of_stays (stays : Stays s s') : Succession s s' :=
  of_alike stays.destroyed stays.handles stays.alike

end Succession

/-! ## Effects -/

namespace Stays

lemma refl (s : Session) : Stays s s := ⟨rfl, rfl, .refl _, rfl⟩

lemma trans (first : Stays s s') (second : Stays s' s'') : Stays s s'' :=
  ⟨second.destroyed.trans first.destroyed, second.handles.trans first.handles,
    ⟨second.alike.handles.trans first.alike.handles,
      second.alike.lastHandle.trans first.alike.lastHandle,
      second.alike.rendered.trans first.alike.rendered⟩,
    second.focused.trans first.focused⟩

/-- A change that leaves the slots of every display and its focus may be made at any handle. -/
lemma atHandle {change : Nat → Display → Display} (handle : Option Nat)
    (alike : ∀ handle d, Display.Alike d (change handle d))
    (focused : ∀ handle d, (change handle d).focused = d.focused) :
    Stays s (s.atHandle handle change) := by
  cases handle with
  | none => exact .refl s
  | some handle => exact ⟨rfl, rfl, alike handle _, focused handle _⟩

/-- Effects other than rendering, removing and moving the focus change no slot. -/
lemma enact (still : effect.changesSlots = false) (unmoved : ∀ slot, effect ≠ .focus slot) :
    Stays s (s.enact effect) := by
  cases effect with
  | renderTerm => cases still
  | removeSlot => cases still
  | updateTerm index t =>
    exact atHandle _ (fun handle d => Display.alike_modifySlot handle d fun _ => rfl) fun _ _ => rfl
  | writeValue slot value =>
    refine atHandle _ (fun handle d => (Display.same_write handle value d).toAlike) fun handle d => ?_
    unfold Display.write
    split <;> rfl
  | setSelected index selected =>
    exact atHandle _ (fun handle d => (Display.same_setSelected handle selected d).toAlike)
      fun _ _ => rfl
  | setValidity slot message =>
    refine atHandle _ (fun handle d => (Display.same_setValidity handle message d).toAlike)
      fun handle d => ?_
    unfold Display.setValidity
    split <;> rfl
  | reportValidity => exact atHandle _ (fun _ _ => ⟨rfl, rfl, rfl⟩) fun _ _ => rfl
  | focus slot => exact (unmoved slot rfl).elim
  | _ => exact ⟨rfl, rfl, ⟨rfl, rfl, rfl⟩, rfl⟩

/-- A move of the focus has to wait, so it changes nothing at once. -/
lemma accept (still : effect.changesSlots = false) : Stays s (s.accept effect) := by
  unfold Session.accept
  split
  · exact ⟨rfl, rfl, .refl _, rfl⟩
  · rename_i immediate
    refine enact still ?_
    rintro slot rfl
    exact immediate rfl

lemma foldl {effects : List Effect} (still : ∀ effect ∈ effects, effect.changesSlots = false) :
    Stays s (effects.foldl Session.accept s) := by
  induction effects generalizing s with
  | nil => exact .refl s
  | cons effect rest ih =>
    exact (accept (still effect List.mem_cons_self)).trans
      (ih fun effect mem => still effect (List.mem_cons_of_mem _ mem))

end Stays

namespace Succession

/-- A term is rendered in the slot of its index, or in a new slot behind all others. -/
lemma renderTerm (index : Nat) (t : Term) (s : Session) :
    Succession s (s.renderTerm index t) := by
  unfold Session.renderTerm
  split
  · rename_i handle found
    exact of_alike rfl rfl (Display.alike_modifySlot handle _ fun _ => rfl)
  · rename_i missing
    have past : s.handles.length ≤ index := List.getElem?_eq_none_iff.mp missing
    have handles : s.handles.take index ++ (s.display.lastHandle + 1) :: s.handles.drop index =
        s.handles ++ [s.display.lastHandle + 1] := by
      rw [List.take_of_length_le past, List.drop_eq_nil_of_le past]
    suffices rendered : Succession s
        { s with
          display := (s.display.render t index).2
          handles := s.handles ++ [s.display.lastHandle + 1] } by
      rw [← handles] at rendered
      exact rendered
    intro h
    obtain ⟨ascending, _⟩ := ascending_concat h.ascending fun _ => h.given
    have fresh : s.display.lastHandle + 1 ∉ s.display.rendered.map (·.1) := by
      intro mem
      exact Nat.not_succ_le_self _ (h.numbered.rendered_given _ mem)
    have prerendered : ∀ handle ∈ (s.display.render t index).2.prerenderedHandles,
        handle ∈ s.display.prerenderedHandles ∧ handle ≠ s.display.lastHandle + 1 := by
      intro handle mem
      obtain ⟨rendered, shown⟩ := Display.mem_prerenderedHandles.mp mem
      have old : handle ≠ s.display.lastHandle + 1 := fun eq => fresh (eq ▸ rendered)
      rcases Display.mem_slotHandles_render.mp shown with new | shown
      · exact (old new).elim
      · exact ⟨Display.mem_prerenderedHandles.mpr ⟨rendered, shown⟩, old⟩
    have mem_handles : ∀ handle, handle ∈ s.handles ++ [s.display.lastHandle + 1] ↔
        handle ∈ s.handles ∨ handle = s.display.lastHandle + 1 := by
      intro handle
      rw [List.mem_append, List.mem_singleton]
    refine ⟨⟨h.running, ⟨?_, h.numbered.rendered, ?_⟩, ?_, ?_, ?_⟩, Nat.le_succ _, ?_, ?_, ?_⟩
    · intro handle shown
      rcases Display.mem_slotHandles_render.mp shown with rfl | shown
      · exact Nat.le_refl _
      · exact Nat.le_succ_of_le (h.numbered.given handle shown)
    · exact fun handle mem => Nat.le_succ_of_le (h.numbered.rendered_given handle mem)
    · exact ascending
    · intro handle mem
      apply Display.mem_slotHandles_render.mpr
      rcases (mem_handles handle).mp mem with mem | rfl
      · exact .inr (h.shown handle mem)
      · exact .inl rfl
    · refine h.apart.imp (fun all handle mem => ?_) fun none handle mem mem' => ?_
      · exact (mem_handles handle).mpr (.inl (all handle (prerendered handle mem).1))
      · rcases (mem_handles handle).mp mem' with mem' | new
        · exact none handle (prerendered handle mem).1 mem'
        · exact (prerendered handle mem).2 new
    · intro handle shown le
      rcases Display.mem_slotHandles_render.mp shown with rfl | shown
      · exact (Nat.not_succ_le_self _ le).elim
      · exact shown
    · exact fun handle mem _ => (mem_handles handle).mpr (.inl mem)
    · intro handle mem _ other mem_other lt
      rcases (mem_handles other).mp mem_other with mem_other | rfl
      · exact mem_other
      · exact (Nat.not_lt_of_le (Nat.le_succ_of_le (h.given mem)) lt).elim

lemma removeSlot (index : Nat) (s : Session) : Succession s (s.removeSlot index) := by
  unfold Session.removeSlot
  split
  · exact .refl s
  · rename_i removed found
    intro h
    have handles : s.handles.eraseIdx index = s.handles.filter (· ≠ removed) := by
      refine (filter_key_eq_eraseIdx ?_ ?_).symm
      · rw [List.map_id']
        exact h.nodup
      · rw [List.map_id']
        exact found
    have mem_handles : ∀ handle, handle ∈ s.handles.eraseIdx index ↔
        handle ∈ s.handles ∧ handle ≠ removed := by
      intro handle
      rw [handles, List.mem_filter, decide_eq_true_iff]
    have slots : ∀ handle, handle ∈ (s.display.remove removed).slotHandles ↔
        handle ∈ s.display.slotHandles ∧ handle ≠ removed := by
      intro handle
      rw [Display.mem_slotHandles_filter (d := s.display) (p := (· ≠ removed)) rfl,
        decide_eq_true_iff]
    have prerendered : ∀ handle ∈ (s.display.remove removed).prerenderedHandles,
        handle ∈ s.display.prerenderedHandles ∧ handle ≠ removed := by
      intro handle mem
      obtain ⟨rendered, shown⟩ := Display.mem_prerenderedHandles.mp mem
      obtain ⟨shown, ne⟩ := (slots handle).mp shown
      exact ⟨Display.mem_prerenderedHandles.mpr ⟨rendered, shown⟩, ne⟩
    refine ⟨⟨h.running, ⟨?_, h.numbered.rendered, h.numbered.rendered_given⟩, ?_, ?_, ?_⟩, Nat.le_refl _,
      ?_, ?_, ?_⟩
    · exact fun handle mem => h.numbered.given handle ((slots handle).mp mem).1
    · exact h.ascending.sublist (List.eraseIdx_sublist _ _)
    · intro handle mem
      obtain ⟨mem, ne⟩ := (mem_handles handle).mp mem
      exact (slots handle).mpr ⟨h.shown handle mem, ne⟩
    · refine h.apart.imp (fun all handle mem => ?_) fun none handle mem mem' => ?_
      · obtain ⟨mem, ne⟩ := prerendered handle mem
        exact (mem_handles handle).mpr ⟨all handle mem, ne⟩
      · exact none handle (prerendered handle mem).1 ((mem_handles handle).mp mem').1
    · exact fun handle mem _ => ((slots handle).mp mem).1
    · intro handle mem shown
      exact (mem_handles handle).mpr ⟨mem, ((slots handle).mp shown).2⟩
    · exact fun _ _ _ other mem _ => ((mem_handles other).mp mem).1

lemma enact (s : Session) (effect : Effect) : Succession s (s.enact effect) := by
  cases effect with
  | renderTerm index t => exact renderTerm index t s
  | removeSlot index => exact removeSlot index s
  | focus slot =>
    have eq : s.enact (.focus slot) = s.atHandle (s.handle? slot) Display.focus := rfl
    rw [eq]
    cases s.handle? slot with
    | none => exact refl s
    | some handle => exact of_alike rfl rfl ⟨rfl, rfl, rfl⟩
  | _ => exact of_stays (.enact rfl nofun)

lemma accept (s : Session) (effect : Effect) : Succession s (s.accept effect) := by
  unfold Session.accept
  split
  · exact of_alike rfl rfl (.refl _)
  · exact enact s effect

lemma apply (s : Session) (command : Command) : Succession s (s.apply command) :=
  foldl accept command.effects s

/-! ## Messages -/

/-- Taking over the slots that were rendered before drops all others. -/
lemma adopt (s : Session) : Succession s (s.adopt (some s.display.prerenderedHandles)) := by
  obtain ⟨focused, eq⟩ :=
    Display.foldl_remove (s.handles.filter (!s.display.prerenderedHandles.contains ·)) s.display
  unfold Session.adopt
  dsimp only
  rw [eq]
  intro h
  have slots : ∀ handle,
      handle ∈ Display.slotHandles { s.display with
        slots := s.display.slots.filter
          (·.handle ∉ s.handles.filter (!s.display.prerenderedHandles.contains ·)), focused } ↔
      handle ∈ s.display.slotHandles ∧
        (handle ∈ s.handles → handle ∈ s.display.prerenderedHandles) := by
    intro handle
    rw [Display.mem_slotHandles_filter (d := s.display)
      (p := (· ∉ s.handles.filter (!s.display.prerenderedHandles.contains ·))) rfl]
    simp only [List.mem_filter, List.contains_eq_mem, decide_eq_true_iff, Bool.not_eq_true',
      decide_eq_false_iff_not, not_and, not_not]
  refine ⟨⟨h.running, ⟨?_, h.numbered.rendered, h.numbered.rendered_given⟩, ?_, ?_, ?_⟩, Nat.le_refl _,
    ?_, ?_, ?_⟩
  · exact fun handle mem => h.numbered.given handle ((slots handle).mp mem).1
  · exact h.numbered.rendered.sublist (List.filter_sublist.map _)
  · intro handle mem
    exact (slots handle).mpr ⟨Display.mem_slotHandles_of_prerendered mem, fun _ => mem⟩
  · left
    intro handle mem
    obtain ⟨rendered, shown⟩ := Display.mem_prerenderedHandles.mp mem
    exact Display.mem_prerenderedHandles.mpr ⟨rendered, ((slots handle).mp shown).1⟩
  · exact fun handle mem _ => ((slots handle).mp mem).1
  · intro handle mem shown
    exact ((slots handle).mp shown).2 mem
  · -- If any of them was taken over before, all were.
    intro handle mem mem' other mem_other _
    rcases h.apart with all | none
    · exact all other mem_other
    · exact (none handle mem' mem).elim

lemma load {payload : Payload} (loaded : s.load payload = .ok s') : Succession s s' := by
  by_cases destroyed : s.destroyed
  · unfold Session.load at loaded
    rw [if_pos destroyed] at loaded
    cases loaded
    exact refl s
  · have running := Bool.eq_false_iff.mpr destroyed
    have edited : ∀ editor, Succession s { s with editor } := fun _ => of_alike rfl rfl (.refl _)
    have other : (∀ metas, payload ≠ .slots metas) → Succession s s' := by
      intro hidden
      obtain ⟨terms, _, rfl⟩ := load_terms running hidden loaded
      exact (edited _).trans (apply _ _)
    cases payload with
    | slots metas =>
      obtain ⟨_, _, rfl⟩ := load_slots running loaded
      exact (edited _).trans ((adopt _).trans (apply _ _))
    | _ => exact other nofun

/-- A payload that is refused changes nothing. -/
lemma restored (payload : Payload) (s : Session) :
    Succession s (match s.load payload with
      | .ok s => s
      | .error _ => s) := by
  split
  · rename_i loaded
    exact load loaded
  · exact refl s

lemma dispatch (s : Session) (message : Message) : Succession s (s.dispatch message) := by
  unfold Session.dispatch
  split
  · exact refl s
  · split
    · exact restored _ s
    · have edited : Succession s { s with editor := (s.editor.update message).1 } :=
        of_alike rfl rfl (.refl _)
      exact edited.trans (apply _ _)

/-! ## Actions -/

lemma perform (s : Session) (effect : Effect) : Succession s (s.perform effect) := by
  by_cases move : ∃ slot, effect = .focus slot
  · obtain ⟨slot, rfl⟩ := move
    cases shown : s.handle? slot with
    | none =>
      rw [perform_hidden shown]
      exact refl s
    | some handle =>
      have focused : Succession s { s with display := s.display.focus handle } :=
        of_alike rfl rfl ⟨rfl, rfl, rfl⟩
      rw [perform_shown shown]
      exact focused.trans (dispatch _ _)
  · rw [perform_eq_enact fun slot eq => move ⟨slot, eq⟩]
    exact enact s effect

lemma turn (s : Session) : Succession s s.turn.2 := by
  unfold Session.turn
  split
  · exact refl s
  · have emptied : Succession s { s with queue := [] } := of_alike rfl rfl (.refl _)
    exact emptied.trans (foldl perform s.queue _)

lemma turns (n : Nat) (s : Session) : Succession s (turns n s) :=
  turns_invariant (P := Succession s) (fun s' later => later.trans (turn s')) n (refl s)

/-- Whatever happens on one display. -/
lemma act (s : Session) {action : Action} (same : ∀ display, action ≠ .refresh display) :
    Succession s (s.act action) := by
  cases action with
  | dispatch message => exact dispatch s message
  | press k =>
    have pressed : s.act (.press k) = (s.press k).2 := rfl
    rw [pressed]
    unfold press
    split
    · exact refl s
    · exact foldl dispatch _ s
  | typeText text => exact foldl (fun s c => dispatch s (.insertChar c)) text s
  | turn => exact turn s
  | settle => exact turns maxTurns s
  | load payload => exact restored payload s
  | refresh display => exact (same display rfl).elim

lemma acts (s : Session) {actions : List Action}
    (same : ∀ action ∈ actions, ∀ display, action ≠ .refresh display) :
    Succession s (actions.foldl Session.act s) := by
  induction actions generalizing s with
  | nil => exact refl s
  | cons action rest ih =>
    exact (act s (same action List.mem_cons_self)).trans
      (ih _ fun action mem => same action (List.mem_cons_of_mem _ mem))

lemma attach (s : Session) : Succession s s.attach := by
  unfold Session.attach
  split
  · exact dispatch s .refresh
  · dsimp only
    split
    · exact dispatch s .reset
    · exact restored _ s

end Succession

/-! ## Runs -/

/-- A session at any moment, on displays that number their slots. -/
inductive Run : Session → Prop
  | start {d : Display} (e : Editor) (keymap : Keymap) (numbered : d.Numbered) :
      Run (start e d keymap)
  | act {s : Session} {action : Action} (run : Run s)
      (numbered : ∀ display, action = .refresh display → display.Numbered) : Run (s.act action)

/-- A session that is attached to a display has no handles yet. -/
lemma filed_attach (running : s.destroyed = false) (handles : s.handles = [])
    (numbered : s.display.Numbered) : s.attach.Filed := by
  have bare : s.Filed := by
    refine ⟨running, numbered, ?_, ?_, .inr ?_⟩
    · rw [handles]
      exact .nil
    · rw [handles]
      exact nofun
    · rw [handles]
      exact fun _ _ => List.not_mem_nil
  exact (Succession.attach s bare).1

lemma Run.filed (h : Run s) : s.Filed := by
  induction h with
  | start e keymap numbered => exact filed_attach rfl rfl numbered
  | @act s action _ numbered ih =>
    by_cases swap : ∃ display, action = .refresh display
    · obtain ⟨display, rfl⟩ := swap
      exact filed_attach ih.running rfl (numbered display rfl)
    · exact (Succession.act s (fun display eq => swap ⟨display, eq⟩) ih).1

end Session
end FilterEditor
