import FilterEditor.Proofs.Delivery
import FilterEditor.Proofs.Pasting
import FilterEditor.Proofs.Retyping

/-!
# Submitting

A session that is submitted commits the text that is pending and hands on the search string of all terms.
That is the string that its display was handed last: every change of the terms hands it over, restoring
terms as well, and nothing else does (`Synced`). Submitting again finds nothing pending and repeats the
string.

What holds here does not need the display to show the terms of the editor: its slots may be loaded with
other terms than they hold, taken away or written to from outside.
-/

namespace FilterEditor

/-- An editor shows its terms on a display, or takes over the slots that it finds there. It may refuse
these; then nothing is handed over, so nothing may have been before. -/
def Editor.Takes (e : Editor) (d : Display) : Prop :=
  e.hasTerms ∨ (∃ c, e.load (.slots (d.prerendered.map (·.2))) = .ok c) ∨ d.synced = []

namespace Session

/-- A session of a reachable editor on any display that it takes, after any actions short of its end.
The display may be changed from outside meanwhile, but for the search string that it was handed. -/
inductive Live : Session → Prop
  | start {e : Editor} {d : Display} (keymap : Keymap) (reachable : e.Reachable)
      (takes : e.Takes d) : Live (start e d keymap)
  | act {s : Session} {action : Action} (live : Live s)
      (takes : ∀ display, action = .refresh display → s.editor.Takes display) : Live (s.act action)
  | outside {s : Session} {display : Display} (live : Live s)
      (same : display.synced = s.display.synced) : Live { s with display }

/-- A session whose display was handed the search string of the editor. -/
structure Synced (s : Session) : Prop where
  running : s.destroyed = false
  deferred : ∀ effect ∈ s.queue, effect.isDeferred
  sound : s.editor.WellFormed
  synced : s.display.synced = s.editor.serialized

variable {s s' : Session} {v : View} {effects : List Effect} {message : Message} {payload : Payload}

/-! ## What is handed over -/

lemma enact_synced (same : v.synced = s.display.synced) (effect : Effect) :
    (v.after effect).synced = (s.enact effect).display.synced := by
  obtain ⟨_, _, _, _, _, _, eq⟩ := enact_told s effect
  rw [eq]
  cases effect with
  | syncValue => rfl
  | _ => exact same

lemma foldl_accept_synced (effects : List Effect) (same : v.synced = s.display.synced) :
    (v.replay effects).synced = (effects.foldl accept s).display.synced := by
  induction effects generalizing v s with
  | nil => exact same
  | cons effect rest ih =>
    refine ih ?_
    unfold accept
    split
    · rename_i deferred
      rw [after_deferred deferred]
      exact same
    · exact enact_synced same effect

/-- A session is synced once it has carried out effects that hand over the search string of its
editor. -/
lemma synced_apply (running : s.destroyed = false) (deferred : ∀ effect ∈ s.queue, effect.isDeferred)
    (sound : s.editor.WellFormed) (same : v.synced = s.display.synced)
    (shown : (v.replay effects).synced = s.editor.serialized) :
    (s.apply (Command.ofEffects effects)).Synced where
  running := (apply_destroyed _ _).trans running
  deferred := by
    rw [apply_queue]
    intro effect mem
    rcases List.mem_append.mp mem with old | new
    · exact deferred effect old
    · exact (List.mem_filter.mp new).2
  sound := by
    rw [apply_editor]
    exact sound
  synced := by
    rw [apply_editor, ← shown]
    unfold apply
    rw [Command.effects_ofEffects]
    exact (foldl_accept_synced effects same).symm

/-- Restoring terms hands their search string over, whatever was handed over before. -/
lemma synced_settled (running : s.destroyed = false)
    (deferred : ∀ effect ∈ s.queue, effect.isDeferred) (sound : s.editor.WellFormed)
    (effects : List Effect) :
    (s.apply (Command.ofEffects (effects ++ s.editor.settledEffects))).Synced := by
  refine synced_apply (v := s.display.view) running deferred sound rfl ?_
  rw [View.replay_append]
  rfl

lemma synced_load (running : s.destroyed = false) (deferred : ∀ effect ∈ s.queue, effect.isDeferred)
    (sound : s.editor.WellFormed) (loaded : s.load payload = .ok s') : s'.Synced := by
  obtain ⟨handles, change, _, load, rfl⟩ := load_eq running loaded
  obtain ⟨terms, _, accepted, rfl⟩ := Editor.load_eq_ok load
  have restored := wellFormed_restore sound accepted
  have adopted := resembles_adopt s (s.editor.restore terms) handles
  have editor := adopt_editor { s with editor := s.editor.restore terms } handles
  have settled := fun effects => synced_settled (adopted.destroyed.trans running)
    (by rw [adopted.queue]; exact deferred) (by rw [editor]; exact restored) effects
  rw [editor] at settled
  dsimp only
  split
  · exact settled []
  · exact settled _

namespace Synced

lemma dispatch (h : s.Synced) (message : Message) : (s.dispatch message).Synced := by
  by_cases loading : message.scope = .loading
  · obtain ⟨payload, rfl⟩ := Message.load_of_scope loading
    rw [dispatch_load h.running, act]
    split
    · rename_i loaded
      exact synced_load h.running h.deferred h.sound loaded
    · exact h
  · rw [dispatch_eq h.running loading]
    have shown := congrArg View.synced (Editor.replay_respond loading h.sound)
    exact synced_apply h.running h.deferred (h.sound.run [message]) h.synced.symm shown

lemma outside (h : s.Synced) {display : Display} (same : display.synced = s.display.synced) :
    Synced { s with display } :=
  ⟨h.running, h.deferred, h.sound, same.trans h.synced⟩

/-- An effect that has waited hands nothing over. -/
lemma perform (h : s.Synced) {effect : Effect} (deferred : effect.isDeferred) :
    (s.perform effect).Synced := by
  have enacted : (s.enact effect).Synced := by
    obtain ⟨display, handles, eq⟩ := enact_eq s effect
    have same := enact_synced (v := s.display.view) rfl effect
    rw [after_deferred deferred, eq] at same
    rw [eq]
    exact ⟨h.running, h.deferred, h.sound, same.symm.trans h.synced⟩
  unfold Session.perform
  split
  · split
    · exact h
    · exact enacted.dispatch _
  · exact enacted

lemma turn (h : s.Synced) : s.turn.2.Synced := by
  have key : ∀ (effects : List Effect) (s : Session), (∀ effect ∈ effects, effect.isDeferred) →
      s.Synced → (effects.foldl Session.perform s).Synced := by
    intro effects
    induction effects with
    | nil => exact fun _ _ h => h
    | cons effect rest ih =>
      intro s deferred h
      exact ih _ (fun effect mem => deferred effect (List.mem_cons_of_mem _ mem))
        (h.perform (deferred effect List.mem_cons_self))
  rw [turn_eq h.running]
  exact key s.queue _ h.deferred ⟨h.running, nofun, h.sound, h.synced⟩

end Synced

lemma composes_synced : Composes fun s _ s' => s.Synced → s'.Synced where
  refl _ := id
  trans h h' := h' ∘ h
  deliver _ message h := h.dispatch message
  turn _ h := h.turn

/-- A display that is taken is handed the search string, even if its slots are refused: then there are
no terms. -/
lemma synced_attach (running : s.destroyed = false) (deferred : ∀ effect ∈ s.queue, effect.isDeferred)
    (sound : s.editor.WellFormed) (takes : s.editor.Takes s.display) : s.attach.Synced := by
  rw [attach_eq]
  unfold attachment
  split
  · have editing : Message.refresh.scope ≠ .loading := nofun
    rw [dispatch_eq running editing]
    exact synced_settled (s := { s with editor := s.editor.restore s.editor.terms.terms }) running
      deferred (sound.run [.refresh]) _
  · rename_i empty
    split
    · have editing : Message.reset.scope ≠ .loading := nofun
      rw [dispatch_eq running editing]
      exact synced_settled (s := { s with editor := s.editor.restore [] }) running deferred
        (sound.run [.reset]) _
    · rw [dispatch_load running, act]
      split
      · rename_i loaded
        exact synced_load running deferred sound loaded
      · rename_i refused
        rcases takes with hasTerms | ⟨c, loads⟩ | fresh
        · exact (empty hasTerms).elim
        · rcases (load_eq_error_cases running).mp refused with adopted | ⟨_, _, refused⟩
          · rw [adopted?_slots, List.length_map, if_pos rfl] at adopted
            cases adopted
          · cases refused.symm.trans loads
        · have none : s.editor.terms.terms = [] := by
            simpa [Editor.hasTerms, Sequence.isEmpty] using empty
          refine ⟨running, deferred, sound, fresh.trans ?_⟩
          rw [Editor.serialized, sound.joined.serialized_eq, none]
          rfl

/-- The display of a session in use was always handed the search string of its editor. -/
lemma Live.synced (h : s.Live) : s.Synced := by
  induction h with
  | start keymap reachable takes => exact synced_attach rfl nofun reachable.wellFormed takes
  | @act s action _ takes ih =>
    by_cases other : ∀ display, action ≠ .refresh display
    · exact composes_synced.act s other ih
    · obtain ⟨display, rfl⟩ := not_forall_not.mp other
      exact synced_attach (s := { s with display, handles := [], queue := [] }) ih.running nofun
        ih.sound (takes display rfl)
  | outside _ same ih => exact ih.outside same

/-! ## Handing on -/

/-- A session with a suggestion pending, on a display with a slot that the editor refuses. -/
def suggested : Session :=
  (start (Editor.new { manageRequired := true } .filter) (.ofTerms [.plain ['b']]) {}).act
    (.dispatch (.suggestion .input
      (.record [("termLabel".toList, ['a']), ("termSearch".toList, ['x'])])))

end Session
end FilterEditor
