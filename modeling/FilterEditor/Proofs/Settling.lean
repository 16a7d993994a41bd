import FilterEditor.Proofs.Loading
import FilterEditor.Proofs.Navigation

/-!
# Settling

What waits in the queue of a session is carried out in two turns. Most effects put nothing new into
the queue. A move of the focus does only if the editor is stuck in an invalid draft, and then it is the
report of the draft and a move back to the slot in focus. Nothing in the same turn gets the editor out
of there, so all that waits for the second turn are reports and moves to the slot that is in focus
already, which change nothing any more.
-/

namespace FilterEditor

/-- What an invalid draft leaves behind in the queue: reports, and moves to the slot in focus. -/
inductive Editor.Claims (e : Editor) : Effect → Prop
  | report (slot : Slot) : Claims e (.reportValidity slot)
  | focus : Claims e (.focus e.focus)

namespace Session

variable {s : Session} {slot : Slot} {effect : Effect}

/-- A queue that is empty or filled by an invalid draft that the editor is stuck in. -/
def Claimed (s : Session) : Prop :=
  s.queue = [] ∨ s.editor.Stuck ∧ ∀ effect ∈ s.queue, s.editor.Claims effect

/-! ## Carrying out effects -/

lemma accept_queue (s : Session) (effect : Effect) :
    (s.accept effect).queue = s.queue ++ [effect].filter (·.isDeferred) := by
  unfold accept
  split
  · rename_i deferred
    rw [List.filter_cons_of_pos deferred]
    rfl
  · rename_i immediate
    obtain ⟨display, handles, eq⟩ := enact_eq s effect
    rw [eq, List.filter_cons_of_neg immediate, List.filter_nil, List.append_nil]

/-- Of the effects of a command, those that have to wait go to the end of the queue. -/
lemma apply_queue (s : Session) (effects : List Effect) :
    (s.apply (Command.ofEffects effects)).queue = s.queue ++ effects.filter (·.isDeferred) := by
  unfold apply
  rw [Command.effects_ofEffects]
  induction effects generalizing s with
  | nil => exact (List.append_nil _).symm
  | cons effect rest ih =>
    rw [List.foldl_cons, ih, accept_queue, List.append_assoc, ← List.filter_append]
    rfl

lemma apply_destroyed (s : Session) (command : Command) :
    (s.apply command).destroyed = s.destroyed := by
  obtain ⟨_, _, _, eq⟩ := apply_eq s command
  rw [eq]

/-- A message that loads nothing changes the editor as it answers, and its effects that have to wait go
to the end of the queue. -/
lemma dispatch_queue {message : Message} (running : s.destroyed = false)
    (editing : message.scope ≠ .loading) :
    (s.dispatch message).queue =
        s.queue ++ (s.editor.respond message).effects.filter (·.isDeferred) ∧
      (s.dispatch message).editor = (s.editor.respond message).editor ∧
      (s.dispatch message).destroyed = false := by
  rw [dispatch_eq running editing]
  exact ⟨apply_queue _ _, apply_editor _ _, (apply_destroyed _ _).trans running⟩

/-! ## Moves of the focus -/

/-- A move to a slot that is not shown is dropped. -/
lemma perform_hidden (hidden : s.handle? slot = none) : s.perform (.focus slot) = s := by
  unfold perform
  dsimp only
  rw [hidden]

/-- A move to a slot that is shown gives it the focus and tells the editor. -/
lemma perform_shown {handle : Nat} (shown : s.handle? slot = some handle) :
    s.perform (.focus slot) =
      dispatch (.focused slot) { s with display := s.display.focus handle } := by
  unfold perform
  dsimp only
  rw [shown]
  simp only [enact, shown, atHandle]

/-- An effect that is no move of the focus is carried out as it is. -/
lemma perform_eq_enact (still : ∀ slot, effect ≠ .focus slot) : s.perform effect = s.enact effect := by
  cases effect with
  | focus slot => exact (still slot rfl).elim
  | _ => rfl

/-- An effect that is no move of the focus leaves the editor and the queue alone. -/
lemma perform_still (still : ∀ slot, effect ≠ .focus slot) :
    ∃ display handles, s.perform effect = { s with display, handles } := by
  rw [perform_eq_enact still]
  exact enact_eq s effect

/-- Within a turn, the queue is empty or filled by the draft that the editor is stuck in. -/
lemma Claimed.perform (h : s.Claimed) (running : s.destroyed = false) (effect : Effect) :
    (s.perform effect).Claimed ∧ (s.perform effect).destroyed = false := by
  by_cases move : ∃ slot, effect = .focus slot
  · obtain ⟨slot, rfl⟩ := move
    cases shown : s.handle? slot with
    | none =>
      rw [perform_hidden shown]
      exact ⟨h, running⟩
    | some handle =>
      rw [perform_shown shown]
      have editing : (Message.focused slot).scope ≠ .loading := nofun
      obtain ⟨queue, editor, running⟩ :=
        dispatch_queue (s := { s with display := s.display.focus handle }) running editing
      refine ⟨?_, running⟩
      unfold Claimed
      rw [queue, editor]
      have cases := Editor.focused_cases slot s.editor
      have answer : s.editor.respond (.focused slot) = s.editor.focused slot := rfl
      dsimp only
      rw [answer]
      generalize s.editor.focused slot = c at cases
      cases cases with
      | stays =>
        rw [Editor.unchanged, List.filter_nil, List.append_nil]
        exact h
      | enters _ free _ plain =>
        -- Only an editor that is not stuck lets the focus go, so nothing waits yet.
        left
        have none : c.effects.filter (·.isDeferred) = [] := by
          apply List.filter_eq_nil_iff.mpr
          intro effect mem
          rw [(plain effect mem).immediate]
          exact Bool.false_ne_true
        rw [none, List.append_nil]
        rcases h with empty | ⟨stuck, _⟩
        · exact empty
        · exact (free stuck).elim
      | refused _ stuck =>
        right
        refine ⟨stuck.remark _, fun effect mem => ?_⟩
        rcases List.mem_append.mp mem with old | new
        · rcases h with empty | ⟨_, claims⟩
          · rw [empty] at old
            cases old
          · cases claims effect old with
            | report slot => exact .report slot
            | focus => exact .focus
        · have claims : effect = .reportValidity s.editor.focus ∨ effect = .focus s.editor.focus := by
            simpa [Editor.claimEffects, Effect.isDeferred] using new
          rcases claims with rfl | rfl
          · exact .report _
          · exact .focus
  · obtain ⟨display, handles, eq⟩ := perform_still (s := s) fun slot eq => move ⟨slot, eq⟩
    rw [eq]
    exact ⟨h, running⟩

/-- What an invalid draft left in the queue changes nothing any more. -/
lemma perform_claims (claims : s.editor.Claims effect) (running : s.destroyed = false) :
    ∃ display handles, s.perform effect = { s with display, handles } := by
  cases claims with
  | report slot => exact perform_still nofun
  | focus =>
    cases shown : s.handle? s.editor.focus with
    | none => exact ⟨_, _, perform_hidden shown⟩
    | some handle =>
      have editing : (Message.focused s.editor.focus).scope ≠ .loading := nofun
      have stays : s.editor.respond (.focused s.editor.focus) = s.editor.unchanged := if_pos (.inl rfl)
      rw [perform_shown shown,
        dispatch_eq (s := { s with display := s.display.focus handle }) running editing]
      dsimp only
      rw [stays]
      exact ⟨_, _, rfl⟩

/-! ## Turns -/

lemma turn_eq (running : s.destroyed = false) :
    s.turn.2 = s.queue.foldl perform { s with queue := [] } := by
  unfold turn
  rw [if_neg (Bool.eq_false_iff.mp running)]

/-- A turn leaves at most what an invalid draft claims. -/
lemma claimed_turn (running : s.destroyed = false) :
    s.turn.2.Claimed ∧ s.turn.2.destroyed = false := by
  have key : ∀ (effects : List Effect) (s : Session), s.Claimed → s.destroyed = false →
      (effects.foldl perform s).Claimed ∧ (effects.foldl perform s).destroyed = false := by
    intro effects
    induction effects with
    | nil => exact fun _ claimed running => ⟨claimed, running⟩
    | cons effect rest ih =>
      intro s claimed running
      obtain ⟨claimed, running⟩ := claimed.perform running effect
      exact ih _ claimed running
  rw [turn_eq running]
  exact key _ _ (.inl rfl) running

/-- A turn that carries out only what an invalid draft claims leaves nothing. -/
lemma queue_turn_of_claims (claims : ∀ effect ∈ s.queue, s.editor.Claims effect)
    (running : s.destroyed = false) : s.turn.2.queue = [] := by
  have key : ∀ (effects : List Effect) (s : Session), (∀ effect ∈ effects, s.editor.Claims effect) →
      s.destroyed = false → (effects.foldl perform s).queue = s.queue := by
    intro effects
    induction effects with
    | nil => exact fun _ _ _ => rfl
    | cons effect rest ih =>
      intro s claims running
      obtain ⟨display, handles, eq⟩ := perform_claims (claims effect List.mem_cons_self) running
      rw [List.foldl_cons, eq]
      exact ih _ (fun effect mem => claims effect (List.mem_cons_of_mem _ mem)) running
  rw [turn_eq running]
  exact key s.queue _ claims running

lemma queue_two_turns (running : s.destroyed = false) : s.turn.2.turn.2.queue = [] := by
  obtain ⟨claimed, running⟩ := claimed_turn running
  apply queue_turn_of_claims ?_ running
  rcases claimed with empty | ⟨_, claims⟩
  · rw [empty]
    exact nofun
  · exact claims

lemma turns_of_empty (empty : s.queue = []) (n : Nat) : turns n s = s := by
  cases n with
  | zero => rfl
  | succ n =>
    unfold turns
    rw [empty]
    rfl

lemma turns_succ (n : Nat) (s : Session) :
    turns (n + 1) s = if s.queue.isEmpty || s.destroyed then s else turns n s.turn.2 :=
  rfl

/-- Beyond two turns there is nothing to do. -/
lemma turns_add_two (running : s.destroyed = false) (n : Nat) : turns (n + 2) s = turns 2 s := by
  rw [turns_succ, turns_succ 1]
  split
  · rfl
  · rw [turns_succ, turns_succ 0]
    split
    · rfl
    · rw [turns_of_empty (queue_two_turns running), turns_of_empty (queue_two_turns running)]

lemma queue_turns_two (running : s.destroyed = false) : (turns 2 s).queue = [] := by
  have stopped : ∀ s : Session, s.destroyed = false → s.queue.isEmpty || s.destroyed →
      s.queue = [] := by
    intro s running done
    simpa [running] using done
  rw [turns_succ]
  split
  · rename_i done
    exact stopped s running done
  · rw [turns_succ]
    split
    · rename_i done
      exact stopped s.turn.2 (claimed_turn running).2 done
    · exact queue_two_turns running

/-- Whatever waits in the queue of a session, two turns carry it out, so settling comes to an end. -/
theorem settles_in_two_turns (running : s.destroyed = false) :
    s.turn.2.turn.2.queue = [] ∧ s.settle = turns 2 s ∧ s.settle.queue = [] := by
  have two : s.settle = turns 2 s := turns_add_two running 62
  exact ⟨queue_two_turns running, two, two ▸ queue_turns_two running⟩

/-- An editor for two terms whose second is opened and spoilt; then the focus is to move on. -/
def spoilt : Session :=
  let s := start ((Editor.new {} .filter).restore [.column ['a'], .operator ['=']]) {} {}
  (s.dispatch .backward).settle.dispatch (.insertChar 'x') |>.dispatch .forward

/-- The spoilt draft is reported and claims the focus back, so a second turn is needed. -/
theorem settles_in_two_turns_spoilt :
    spoilt.turn.2.queue = [.reportValidity (.term 1), .focus (.term 1)] ∧
      spoilt.turn.2.turn.2.queue = [] ∧ spoilt.settle = turns 2 spoilt ∧ spoilt.settle.queue = [] := by
  have running : spoilt.destroyed = false := by decide
  exact ⟨by decide, settles_in_two_turns running⟩

end Session
end FilterEditor
