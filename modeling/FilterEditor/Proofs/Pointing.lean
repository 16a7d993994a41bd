import FilterEditor.Proofs.Keeping
import FilterEditor.Proofs.Landing

/-!
# The slot in focus on the display

The display knows its focus by a handle, the editor by a slot. `Points` translates: the focus of the
display is on a slot that the session shows, or nowhere. Carrying out effects moves the slot that is
pointed to just as the effects say (`sited_apply`), so it can be compared with the focus of the
editor, which goes along with its slot too.
-/

namespace FilterEditor.Session

/-- The slot that has the focus on the display. -/
inductive Points (s : Session) : Option Slot → Prop
  | nowhere (nothing : s.display.focused = none) : Points s none
  | slot {slot : Slot} {handle : Nat} (shown : s.handle? slot = some handle)
      (focused : s.display.focused = some handle) : Points s (some slot)

/-- A session on a display that showed nothing before, with a slot in focus or none. -/
structure Sited (s : Session) (slot : Option Slot) : Prop where
  bare : s.display.rendered = []
  terms : ∀ handle ∈ s.handles, handle ≠ Display.inputHandle
  points : s.Points slot

variable {s s' : Session} {slot : Option Slot} {effect : Effect} {message : Message} {index : Nat}

lemma handle?_congr (handles : s'.handles = s.handles) (slot : Slot) :
    s'.handle? slot = s.handle? slot := by
  unfold handle?
  rw [handles]

/-- A slot that has the focus keeps it while handles are only added and the display leaves the
focus alone. -/
lemma Points.congr (h : s.Points slot) (focused : s'.display.focused = s.display.focused)
    (shown : ∀ slot handle, s.handle? slot = some handle → s'.handle? slot = some handle) :
    s'.Points slot := by
  cases h with
  | nowhere nothing => exact .nowhere (focused.trans nothing)
  | slot found at_handle => exact .slot (shown _ _ found) (focused.trans at_handle)

lemma Stays.sited (h : Stays s s') (sited : s.Sited slot) : s'.Sited slot := by
  refine ⟨h.alike.rendered.trans sited.bare, h.handles ▸ sited.terms, ?_⟩
  refine sited.points.congr h.focused fun slot handle found => ?_
  rw [handle?_congr h.handles]
  exact found

/-! ## Effects -/

/-- Where an item is found after another one is removed. -/
lemma getElem?_eraseIdx_shiftIndex {i : Nat} (items : List Nat) (ne : i ≠ index) :
    (items.eraseIdx index)[Editor.shiftIndex index i]? = items[i]? := by
  rw [List.getElem?_eraseIdx]
  unfold Editor.shiftIndex
  split
  · rename_i behind
    have not_lt : ¬ i - 1 < index := by omega
    have back : i - 1 + 1 = i := by omega
    rw [if_neg not_lt, back]
  · rename_i before
    have lt : i < index := by omega
    rw [if_pos lt]

lemma sited_renderTerm (t : Term) (h : s.Sited slot) : (s.renderTerm index t).Sited slot := by
  unfold renderTerm
  split
  · exact ⟨h.bare, h.terms, h.points.congr rfl fun _ _ found => found⟩
  · rename_i missing
    have past : s.handles.length ≤ index := List.getElem?_eq_none_iff.mp missing
    have handles : s.handles.take index ++ (s.display.lastHandle + 1) :: s.handles.drop index =
        s.handles ++ [s.display.lastHandle + 1] := by
      rw [List.take_of_length_le past, List.drop_eq_nil_of_le past]
    suffices rendered : Sited
        { s with
          display := (s.display.render t index).2
          handles := s.handles ++ [s.display.lastHandle + 1] } slot by
      rw [← handles] at rendered
      exact rendered
    refine ⟨h.bare, ?_, h.points.congr rfl ?_⟩
    · intro handle mem
      rcases List.mem_append.mp mem with mem | mem
      · exact h.terms handle mem
      · rw [List.mem_singleton.mp mem]
        exact Nat.succ_ne_zero _
    · intro slot handle found
      cases slot with
      | input => exact found
      | term i =>
        have lt : i < s.handles.length := (List.getElem?_eq_some_iff.mp found).1
        exact (List.getElem?_append_left lt).trans found

/-- The focus goes with its slot; the focus on a later slot moves up with it. -/
lemma sited_removeSlot (nodup : s.handles.Nodup) (h : s.Sited slot) :
    (s.removeSlot index).Sited (slot.bind (·.after (.removeSlot index))) := by
  unfold removeSlot
  split
  · rename_i missing
    have past : s.handles.length ≤ index := List.getElem?_eq_none_iff.mp missing
    -- Nothing is shown past the last handle, so the slot in focus stands before the index.
    have same : slot.bind (·.after (.removeSlot index)) = slot := by
      cases h.points with
      | nowhere => rfl
      | @slot target handle shown =>
        cases target with
        | input => rfl
        | term i =>
          have lt : i < s.handles.length := (List.getElem?_eq_some_iff.mp shown).1
          have ne : i ≠ index := Nat.ne_of_lt (Nat.lt_of_lt_of_le lt past)
          have before : ¬ index < i := Nat.not_lt_of_lt (Nat.lt_of_lt_of_le lt past)
          simp only [Option.bind_some, Slot.after, if_neg ne, Editor.shiftIndex, if_neg before]
    rw [same]
    exact h
  · rename_i removed found
    refine ⟨h.bare, fun handle mem => h.terms handle (List.mem_of_mem_eraseIdx mem), ?_⟩
    -- Any other focus is on a slot that stays.
    have kept : ∀ {handle}, s.display.focused = some handle → handle ≠ removed →
        (s.display.remove removed).focused = some handle := by
      intro handle focused ne
      have eq : (s.display.remove removed).focused =
          if s.display.focused = some removed then none else s.display.focused := rfl
      rw [eq, focused, if_neg fun eq => ne (Option.some.inj eq)]
    cases h.points with
    | nowhere nothing =>
      refine .nowhere ?_
      have eq : (s.display.remove removed).focused =
          if s.display.focused = some removed then none else s.display.focused := rfl
      rw [eq, nothing]
      rfl
    | @slot target handle shown focused =>
      cases target with
      | input =>
        cases shown
        refine .slot rfl (kept focused ?_)
        exact (h.terms removed (List.mem_of_getElem? found)).symm
      | term i =>
        by_cases eq : i = index
        · subst eq
          cases shown.symm.trans found
          have gone : (some (Slot.term i)).bind (·.after (.removeSlot i)) = none := if_pos rfl
          rw [gone]
          exact .nowhere (if_pos focused)
        · have moved : (some (Slot.term i)).bind (·.after (.removeSlot index)) =
              some (.term (Editor.shiftIndex index i)) := if_neg eq
          have shown : s.handles[i]? = some handle := shown
          rw [moved]
          refine .slot ?_ (kept focused ?_)
          · exact (getElem?_eraseIdx_shiftIndex s.handles eq).trans shown
          · rintro rfl
            have lt : i < s.handles.length := (List.getElem?_eq_some_iff.mp shown).1
            exact eq ((List.getElem?_inj lt nodup).mp (shown.trans found.symm))

/-- Carrying out an effect moves the slot in focus as the effect says. -/
lemma sited_accept (aligned : s.Aligned) (h : s.Sited slot) :
    (s.accept effect).Sited (slot.bind (·.after effect)) := by
  have nodup : s.handles.Nodup := aligned.handles ▸ aligned.sound.nodup
  cases effect with
  | removeSlot index => exact sited_removeSlot nodup h
  | renderTerm index t =>
    rw [show slot.bind (·.after (.renderTerm index t)) = slot by cases slot <;> rfl]
    exact sited_renderTerm t h
  | _ =>
    rw [show slot.bind _ = slot by cases slot <;> rfl]
    exact Stays.sited (.accept rfl) h

/-- Carrying out effects moves the slot in focus as they say. -/
lemma sited_apply (effects : List Effect) (aligned : s.Aligned) (h : s.Sited slot) :
    (s.apply (Command.ofEffects effects)).Sited (Slot.follow slot effects) := by
  unfold apply
  rw [Command.effects_ofEffects]
  induction effects generalizing s slot with
  | nil => exact h
  | cons effect rest ih =>
    exact ih (accept_follows aligned effect).aligned (sited_accept aligned h)

/-- A change of the editor touches neither the slots nor the focus of the display. -/
lemma Sited.edit (h : s.Sited slot) (editor : Editor) : Sited { s with editor } slot :=
  ⟨h.bare, h.terms, h.points.congr rfl fun slot _ found => (handle?_congr rfl slot).trans found⟩

lemma sited_dispatch (running : s.destroyed = false) (aligned : s.Aligned)
    (editing : message.scope ≠ .loading) (h : s.Sited slot) :
    (s.dispatch message).Sited (Slot.follow slot (s.editor.respond message).effects) := by
  rw [dispatch_eq running editing]
  exact sited_apply _ ⟨aligned.sound, aligned.handles⟩ (h.edit _)

end FilterEditor.Session
