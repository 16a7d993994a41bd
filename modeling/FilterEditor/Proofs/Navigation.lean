import FilterEditor.Editor.Navigation
import FilterEditor.Proofs.Commit

/-!
# Moving the focus

What taking over the focus comes to. `focused_cases` lists the three ways in which it can end: there is
nothing to move to, the slot is entered once the draft of the old one is saved, or an invalid draft
keeps the focus and claims it back. A draft that is refused stays refused until it is edited: it keeps
the editor `Stuck`.
-/

namespace FilterEditor

/-- Whether an effect renders or removes a slot. -/
def Effect.changesSlots : Effect → Bool
  | .renderTerm _ _ | .removeSlot _ => true
  | _ => false

/-- An effect that happens at once and leaves the slots where they are. -/
structure Effect.Plain (effect : Effect) : Prop where
  immediate : effect.isDeferred = false
  still : effect.changesSlots = false

namespace Editor

variable {slot : Slot} {e : Editor} {index : Nat}

/-- A slot that there is no need to move to: it is in focus, or there is no such slot. -/
def Reached (slot : Slot) (e : Editor) : Prop :=
  slot = e.focus ∨ slot.index?.any (e.terms.length ≤ ·)

/-- An editor that an invalid draft keeps where it is. -/
def Stuck (e : Editor) : Prop :=
  ∃ index draft message, (e.terms.get? index).isSome ∧ e.focus = .term index ∧
    e.draft = some draft ∧ e.check (.term index) draft.text = .invalid message

/-- A draft is marked and reported, and the focus is claimed back. -/
def claimEffects (message : Text) (e : Editor) : List Effect :=
  [.setValidity e.focus (some message), .reportValidity e.focus, .focus e.focus]

/-- What taking over the focus comes to. -/
inductive Focused (slot : Slot) (e : Editor) : Change → Prop
  /-- There is nothing to move to. -/
  | stays (reached : e.Reached slot) : Focused slot e e.unchanged
  /-- The slot is entered. -/
  | enters {c : Change} (away : ¬ e.Reached slot) (free : ¬ e.Stuck) (focus : c.editor.focus = slot)
      (plain : ∀ effect ∈ c.effects, effect.Plain) : Focused slot e c
  /-- The draft is refused and claims the focus back. -/
  | refused {message : Text} (away : ¬ e.Reached slot) (stuck : e.Stuck) :
      Focused slot e ⟨{ e with validity := some message }, e.claimEffects message⟩

lemma Stuck.focus_ne (h : e.Stuck) : e.focus ≠ .input := by
  obtain ⟨_, _, _, _, focus, _⟩ := h
  rw [focus]
  exact nofun

/-- A mark does not make a draft valid. -/
lemma Stuck.remark (h : e.Stuck) (validity : Option Text) : Stuck { e with validity } := h

/-- The slot in focus may not be left just if its draft is invalid. -/
lemma save_refused_iff (focus : e.focus = .term index) : (e.save index).1 = false ↔ e.Stuck := by
  constructor
  · intro refused
    unfold save at refused
    dsimp only at refused
    split at refused
    · rename_i current draft held edited
      split at refused
      · cases refused
      · split at refused
        · rename_i message check
          exact ⟨index, draft, message, Option.isSome_iff_exists.mpr ⟨current, held⟩, focus, edited,
            check⟩
        · split at refused
          · cases refused
          · split at refused <;> cases refused
    · cases refused
  · rintro ⟨other, draft, message, held, focus', edited, check⟩
    cases focus.symm.trans focus'
    obtain ⟨current, held⟩ := Option.isSome_iff_exists.mp held
    have h := save_cases index e
    generalize e.save index = saved at h
    cases h with
    | absent absent => exact (not_absent held edited focus absent).elim
    | refused => rfl
    | blank _ edited' _ check' =>
      cases edited.symm.trans edited'
      cases check.symm.trans check'
    | kept _ edited' _ check' =>
      cases edited.symm.trans edited'
      cases check.symm.trans check'
    | replaced _ edited' _ check' =>
      cases edited.symm.trans edited'
      cases check.symm.trans check'

/-- A slot that may be left is saved at once. -/
lemma plain_save (accepted : (e.save index).1 = true) :
    ∀ effect ∈ (e.save index).2.effects, effect.Plain := by
  have h := save_cases index e
  generalize e.save index = saved at h accepted
  cases h with
  | refused => cases accepted
  | replaced =>
    intro effect mem
    simp only [List.mem_cons, List.not_mem_nil, or_false] at mem
    rcases mem with rfl | rfl <;> exact ⟨rfl, rfl⟩
  | blank =>
    intro effect mem
    cases List.mem_singleton.mp mem
    exact ⟨rfl, rfl⟩
  | _ => exact nofun

lemma enter_focus (slot : Slot) (e : Editor) :
    (e.enter slot).editor.focus = slot ∧ ∀ effect ∈ (e.enter slot).effects, effect.Plain := by
  cases slot with
  | input =>
    refine ⟨rfl, fun effect mem => ?_⟩
    cases List.mem_singleton.mp mem
    exact ⟨rfl, rfl⟩
  | term index => exact ⟨rfl, nofun⟩

/-- A refused draft is marked with what is said about it. -/
lemma save_of_refused (refused : (e.save index).1 = false) :
    ∃ message, (e.save index).2 = ⟨{ e with validity := some message },
      [.setValidity e.focus (some message), .reportValidity e.focus]⟩ := by
  have h := save_cases index e
  generalize e.save index = saved at h refused
  cases h with
  | refused _ focus _ =>
    rw [focus]
    exact ⟨_, rfl⟩
  | _ => cases refused

/-- Taking over the focus ends in one of three ways. -/
lemma focused_cases (slot : Slot) (e : Editor) : Focused slot e (e.focused slot) := by
  unfold focused
  split
  · rename_i reached
    exact .stays reached
  · rename_i away
    split
    · rename_i focus
      obtain ⟨entered, plain⟩ := enter_focus slot e
      exact .enters away (fun stuck => stuck.focus_ne focus) entered plain
    · rename_i left focus
      split
      · rename_i saved eq
        have accepted : (e.save left).1 = true := congrArg Prod.fst eq
        have plain := plain_save accepted
        rw [eq] at plain
        obtain ⟨entered, quiet⟩ := enter_focus slot saved.editor
        refine .enters away ?_ entered ?_
        · intro stuck
          cases accepted.symm.trans ((save_refused_iff focus).mpr stuck)
        · intro effect mem
          rcases List.mem_append.mp mem with mem | mem
          · exact plain effect mem
          · exact quiet effect mem
      · rename_i saved eq
        have refused : (e.save left).1 = false := congrArg Prod.fst eq
        obtain ⟨message, change⟩ := save_of_refused refused
        rw [eq] at change
        cases change
        exact .refused away ((save_refused_iff focus).mp refused)

/-- Where there is something to move to, the slot is entered from the trailing input, or the draft of
the slot in focus is saved first. -/
lemma focused_away (away : ¬ e.Reached slot) :
    (e.focus = .input ∧ e.focused slot = e.enter slot) ∨
      ∃ left, e.focus = .term left ∧
        ((¬ e.Stuck ∧ e.focused slot = (e.save left).2.andThen (enter slot)) ∨
          (e.Stuck ∧ e.focused slot = (e.save left).2.andShow fun e => [.focus e.focus])) := by
  have opened : e.focused slot = _ := if_neg away
  rw [opened]
  cases focus : e.focus with
  | input => exact .inl ⟨rfl, rfl⟩
  | term left =>
    refine .inr ⟨left, rfl, ?_⟩
    have refused := save_refused_iff focus
    dsimp only
    generalize e.save left = saved at refused ⊢
    obtain ⟨accepted, change⟩ := saved
    cases accepted with
    | true => exact .inl ⟨fun stuck => Bool.noConfusion (refused.mpr stuck), rfl⟩
    | false => exact .inr ⟨refused.mp rfl, rfl⟩

end Editor
end FilterEditor
