import FilterEditor.Proofs.Succession

/-!
# Where moves of the focus land

A move of the focus that waits names its target by the index of a term, and what happens before its
turn may leave another slot at that index. `same_index_iff` tells when: a handle keeps its index just
as long as no slot before it goes. `focus_lands` is the consequence for a move that waits while the
session goes on. It reaches the slot that it was meant for only if this slot and all those before it
are still there; else it is lost or ends on another slot.
-/

namespace FilterEditor

/-- Up to an item of an ascending list stand those that are not greater. -/
lemma mem_take_succ_iff {items : List Nat} {i item other : Nat} (ascending : items.Pairwise (· < ·))
    (found : items[i]? = some item) : other ∈ items.take (i + 1) ↔ other ∈ items ∧ other ≤ item := by
  induction items generalizing i with
  | nil => cases found
  | cons first rest ih =>
    rw [List.pairwise_cons] at ascending
    obtain ⟨least, ascending⟩ := ascending
    cases i with
    | zero =>
      cases found
      rw [List.take_succ_cons, List.take_zero, List.mem_singleton, List.mem_cons]
      constructor
      · rintro rfl
        exact ⟨.inl rfl, Nat.le_refl _⟩
      · rintro ⟨rfl | mem, le⟩
        · rfl
        · exact (Nat.not_lt_of_le le (least other mem)).elim
    | succ i =>
      have found : rest[i]? = some item := found
      have lt : first < item := least item (List.mem_of_getElem? found)
      rw [List.take_succ_cons, List.mem_cons, List.mem_cons, ih ascending found]
      constructor
      · rintro (rfl | ⟨mem, le⟩)
        · exact ⟨.inl rfl, Nat.le_of_lt lt⟩
        · exact ⟨.inr mem, le⟩
      · rintro ⟨rfl | mem, le⟩
        · exact .inl rfl
        · exact .inr ⟨mem, le⟩

namespace Session

variable {s s' : Session} {i handle : Nat}

/-- Where a move of the focus to the term at an index ends, if the slot of a handle was meant. -/
inductive Landing (handles : List Nat) (i handle : Nat) (s : Session) : Session → Prop
  /-- The slot and all those before it are still there, and it gets the focus. -/
  | reached {after : Session}
      (kept : ∀ other ∈ handles.take (i + 1), other ∈ s.display.slotHandles)
      (focused : after.display.focused = some handle) : Landing handles i handle s after
  /-- There is no slot at the index any more, so nothing happens. -/
  | lost (gone : ∃ other ∈ handles.take (i + 1), other ∉ s.display.slotHandles)
      (short : s.handles.length ≤ i) : Landing handles i handle s s
  /-- Another slot has moved up to the index, and it gets the focus. -/
  | astray {after : Session} {found : Nat}
      (gone : ∃ other ∈ handles.take (i + 1), other ∉ s.display.slotHandles)
      (moved : s.handles[i]? = some found) (other : found ≠ handle)
      (focused : after.display.focused = some found) : Landing handles i handle s after

/-! ## Indices -/

/-- A handle keeps its index just as long as no slot up to it goes. -/
lemma same_index_iff (h : s.Filed) (h' : s'.Filed) (later : s.Succeeds s')
    (held : s.handles[i]? = some handle) :
    s'.handles[i]? = some handle ↔
      ∀ other ∈ s.handles.take (i + 1), other ∈ s'.display.slotHandles := by
  have mem : handle ∈ s.handles := List.mem_of_getElem? held
  have before : ∀ other, other ∈ s.handles.take (i + 1) ↔ other ∈ s.handles ∧ other ≤ handle :=
    fun other => mem_take_succ_iff h.ascending held
  -- What stands up to the handle later on stood there before.
  have old : handle ∈ s'.handles → ∀ other ∈ s'.handles, other ≤ handle →
      other ∈ s.handles.take (i + 1) := by
    intro mem' other mem_other le
    apply (before other).mpr
    rcases Nat.lt_or_eq_of_le le with lt | rfl
    · exact ⟨later.behind handle mem mem' other mem_other lt, le⟩
    · exact ⟨mem, le⟩
  have length : ∀ {items : List Nat} {k : Nat}, items[k]? = some handle →
      (items.take (k + 1)).length = k + 1 := by
    intro items k found
    rw [List.length_take]
    exact Nat.min_eq_left (List.getElem?_eq_some_iff.mp found).1
  constructor
  · intro held'
    have mem' : handle ∈ s'.handles := List.mem_of_getElem? held'
    have subset : s'.handles.take (i + 1) ⊆ s.handles.take (i + 1) := by
      intro other mem_other
      obtain ⟨mem_other, le⟩ := (mem_take_succ_iff h'.ascending held').mp mem_other
      exact old mem' other mem_other le
    have nodup : (s'.handles.take (i + 1)).Nodup := h'.nodup.sublist (List.take_sublist _ _)
    have perm : (s'.handles.take (i + 1)).Perm (s.handles.take (i + 1)) := by
      apply (List.subperm_of_subset nodup subset).perm_of_length_le
      rw [length held, length held']
    intro other mem_other
    exact h'.shown other (List.mem_of_mem_take (perm.mem_iff.mpr mem_other))
  · intro kept
    have kept : ∀ other ∈ s.handles.take (i + 1), other ∈ s'.handles := fun other mem_other =>
      later.kept other (List.mem_of_mem_take mem_other) (kept other mem_other)
    have mem' : handle ∈ s'.handles := kept handle ((before handle).mpr ⟨mem, Nat.le_refl _⟩)
    obtain ⟨k, held'⟩ := List.getElem?_of_mem mem'
    have same : s'.handles.take (k + 1) = s.handles.take (i + 1) := by
      apply (h'.ascending.sublist (List.take_sublist _ _)).eq_of_mem_iff
        (h.ascending.sublist (List.take_sublist _ _))
      intro other
      rw [mem_take_succ_iff h'.ascending held']
      constructor
      · rintro ⟨mem_other, le⟩
        exact old mem' other mem_other le
      · intro mem_other
        exact ⟨kept other mem_other, ((before other).mp mem_other).2⟩
    have eq : k = i := by
      have lengths := congrArg List.length same
      rw [length held, length held'] at lengths
      exact Nat.succ.inj lengths
    rw [← eq]
    exact held'

/-! ## Moves -/

/-- A message that is answered without touching the slots leaves them, and the one in focus. -/
lemma stays_dispatch {message : Message} (editing : message.scope ≠ .loading)
    (still : ∀ effect ∈ (s.editor.respond message).effects, effect.changesSlots = false) :
    Stays s (s.dispatch message) := by
  by_cases destroyed : s.destroyed
  · unfold dispatch
    rw [if_pos destroyed]
    exact .refl s
  · rw [dispatch_eq (Bool.eq_false_iff.mpr destroyed) editing]
    unfold apply
    rw [Command.effects_ofEffects]
    have answered : Stays s { s with editor := (s.editor.respond message).editor } :=
      ⟨rfl, rfl, .refl _, rfl⟩
    exact answered.trans (.foldl still)

/-- The editor is told where the focus is; no slot changes for that, and the focus stays there. -/
lemma stays_focused (slot : Slot) (s : Session) : Stays s (s.dispatch (.focused slot)) := by
  have still : ∀ effect ∈ (s.editor.focused slot).effects, effect.changesSlots = false := by
    have cases := Editor.focused_cases slot s.editor
    generalize s.editor.focused slot = c at cases
    cases cases with
    | stays => exact List.forall_mem_nil _
    | enters _ _ _ plain => exact fun effect mem => (plain effect mem).still
    | refused =>
      intro effect mem
      simp only [Editor.claimEffects, List.mem_cons, List.not_mem_nil, or_false] at mem
      rcases mem with rfl | rfl | rfl <;> rfl
  exact stays_dispatch (by rintro ⟨⟩) still

/-- A move to a slot that is shown gives it the focus. -/
lemma focused_perform {slot : Slot} (shown : s.handle? slot = some handle) :
    (s.perform (.focus slot)).display.focused = some handle := by
  rw [perform_shown shown]
  exact (stays_focused slot _).focused

/-- Where a move ends that was meant for a slot of an earlier time. -/
lemma landing (h : s.Filed) (h' : s'.Filed) (later : s.Succeeds s')
    (held : s.handles[i]? = some handle) :
    Landing s.handles i handle s' (s'.perform (.focus (.term i))) := by
  by_cases kept : ∀ other ∈ s.handles.take (i + 1), other ∈ s'.display.slotHandles
  · have shown : s'.handle? (.term i) = some handle := (same_index_iff h h' later held).mpr kept
    exact .reached kept (focused_perform shown)
  · have gone : ∃ other ∈ s.handles.take (i + 1), other ∉ s'.display.slotHandles := by
      simpa only [not_forall, exists_prop] using kept
    cases found : s'.handles[i]? with
    | none =>
      have hidden : s'.handle? (.term i) = none := found
      rw [perform_hidden hidden]
      exact .lost gone (List.getElem?_eq_none_iff.mp found)
    | some other =>
      refine .astray gone found ?_ (focused_perform found)
      rintro rfl
      exact kept ((same_index_iff h h' later held).mp found)

/-- Whatever happens on one display while a move of the focus to a term waits, the move is carried out
in its turn and lands by its index: on the slot that had the index at any earlier time just if no slot
up to it has gone since. -/
theorem focus_lands {actions : List Action} {before after : List Effect} (run : Run s)
    (same : ∀ action ∈ actions, ∀ display, action ≠ .refresh display)
    (held : s.handles[i]? = some handle)
    (waits : (actions.foldl act s).queue = before ++ .focus (.term i) :: after) :
    ∃ due, due = before.foldl perform { actions.foldl act s with queue := [] } ∧
      (actions.foldl act s).turn.2 = after.foldl perform (due.perform (.focus (.term i))) ∧
      Landing s.handles i handle due (due.perform (.focus (.term i))) := by
  obtain ⟨filed, later⟩ := Succession.acts s same run.filed
  have emptied : Succession s { actions.foldl act s with queue := [] } :=
    (Succession.acts s same).trans (.of_alike rfl rfl (.refl _))
  obtain ⟨due, succeeds⟩ := emptied.trans (.foldl Succession.perform before _) run.filed
  refine ⟨_, rfl, ?_, landing run.filed due succeeds held⟩
  rw [turn_eq filed.running, waits, List.foldl_append, List.foldl_cons]

/-- An editor for three terms whose focus is to move from the trailing input to the first of them. -/
def forwarded : Session :=
  let terms : List Term := [.column ['a'], .operator ['='], .value ['v']]
  (start ((Editor.new {} .filter).restore terms) {} {}).act (.dispatch .forward)

/-- The first term goes before its slot gets the focus, so the move goes astray. -/
theorem focus_lands_removed :
    forwarded.handles[0]? = some 1 ∧
      ∃ due, (forwarded.act (.dispatch (.remove 0))).turn.2 = due.perform (.focus (.term 0)) ∧
        due.handles[0]? = some 2 ∧
        Landing forwarded.handles 0 1 due (due.perform (.focus (.term 0))) := by
  have numbered : ({} : Display).Numbered := ⟨nofun, .nil, nofun⟩
  have run : Run forwarded := by
    unfold forwarded
    refine .act (.start _ {} numbered) ?_
    intro display eq
    cases eq
  have held : forwarded.handles[0]? = some 1 := by decide
  have same : ∀ action ∈ [Action.dispatch (.remove 0)], ∀ display, action ≠ .refresh display := by
    rintro _ mem display rfl
    cases List.mem_singleton.mp mem
  have waits : ([Action.dispatch (.remove 0)].foldl act forwarded).queue =
      [] ++ .focus (.term 0) :: [] := by decide
  obtain ⟨due, eq, turn, landing⟩ := focus_lands run same held waits
  refine ⟨held, due, turn, ?_, landing⟩
  rw [eq]
  decide

/-- A move that was meant for a slot which is gone changes the focus of the display and of the
editor. -/
theorem focus_astray :
    let later := forwarded.act (.dispatch (.remove 0))
    later.queue = forwarded.queue ∧ forwarded.handles[0]? = some 1 ∧ 1 ∉ later.display.slotHandles ∧
      later.display.focused = none ∧ later.turn.2.display.focused = some 2 ∧
      later.editor.focus = .input ∧ later.turn.2.editor.focus = .term 0 := by
  decide

end Session
end FilterEditor
