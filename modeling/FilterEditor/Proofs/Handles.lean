import FilterEditor.Proofs.View
import FilterEditor.Session
import Mathlib.Data.List.InsertIdx
import Mathlib.Data.List.Sort

/-!
# Handles

A session names the slots of its display by handles and keeps the handles in the order of the terms.
Since handles are given out in ascending order and new slots go to the end, the handles of a session
stay ascending and those of the slots on its display, so an effect on the term at an index is carried
out on the slot at that index: `enact_view` says that carrying out an effect changes what the display
shows just as the effect says.
-/

namespace FilterEditor

/-! ## Lists with keys -/

section Keys

variable {α β : Type} {key : α → Nat} {items : List α} {index k : Nat}

lemma filter_key_eq_eraseIdx (nodup : (items.map key).Nodup) (found : (items.map key)[index]? = some k) :
    items.filter (fun a => key a ≠ k) = items.eraseIdx index := by
  induction items generalizing index with
  | nil => rfl
  | cons a rest ih =>
    rw [List.map_cons, List.nodup_cons] at nodup
    obtain ⟨fresh, nodup⟩ := nodup
    cases index with
    | zero =>
      cases found
      rw [List.filter_cons_of_neg (by simp), List.eraseIdx_cons_zero, List.filter_eq_self]
      intro b hb
      have ne : key b ≠ key a := fun eq => fresh (eq ▸ List.mem_map_of_mem hb)
      simpa using ne
    | succ index =>
      have found : (rest.map key)[index]? = some k := found
      have ne : key a ≠ k := by
        rintro rfl
        exact fresh (List.mem_of_getElem? found)
      rw [List.filter_cons_of_pos (by simpa using ne), List.eraseIdx_cons_succ, ih nodup found]

lemma map_key_eq_set {change : α → α} {read : α → β} {y : β} (nodup : (items.map key).Nodup)
    (found : (items.map key)[index]? = some k) (changed : ∀ a, read (change a) = y) :
    (items.map fun a => if key a = k then change a else a).map read =
      (items.map read).set index y := by
  induction items generalizing index with
  | nil => rfl
  | cons a rest ih =>
    rw [List.map_cons, List.nodup_cons] at nodup
    obtain ⟨fresh, nodup⟩ := nodup
    cases index with
    | zero =>
      cases found
      have same : (rest.map fun b => if key b = key a then change b else b) = rest := by
        conv_rhs => rw [← List.map_id rest]
        apply List.map_congr_left
        intro b hb
        have ne : key b ≠ key a := fun eq => fresh (eq ▸ List.mem_map_of_mem hb)
        rw [if_neg ne]
        rfl
      rw [List.map_cons, same, if_pos rfl]
      simp [changed]
    | succ index =>
      have found : (rest.map key)[index]? = some k := found
      have ne : key a ≠ k := by
        rintro rfl
        exact fresh (List.mem_of_getElem? found)
      rw [List.map_cons, if_neg ne, List.map_cons, ih nodup found]
      rfl

end Keys

/-- Handles stay in ascending order if the next one that was never given out goes to the end. -/
lemma ascending_concat {handles : List Nat} {last : Nat} (ascending : handles.Pairwise (· < ·))
    (given : ∀ handle ∈ handles, handle ≤ last) :
    (handles ++ [last + 1]).Pairwise (· < ·) ∧
      ∀ handle ∈ handles ++ [last + 1], handle ≤ last + 1 := by
  constructor
  · rw [List.pairwise_append]
    refine ⟨ascending, List.pairwise_singleton _ _, ?_⟩
    intro handle hh next hn
    cases List.mem_singleton.mp hn
    exact Nat.lt_succ_of_le (given handle hh)
  · intro handle hh
    rcases List.mem_append.mp hh with hh | hh
    · exact Nat.le_succ_of_le (given handle hh)
    · cases List.mem_singleton.mp hh
      exact Nat.le_refl _

/-! ## Displays -/

namespace Display

/-- The handles of the slots. -/
def slotHandles (d : Display) : List Nat := d.slots.map (·.handle)

/-- Slots in the order in which their handles were given out. -/
structure Sound (d : Display) : Prop where
  slots : d.slotHandles.Pairwise (· < ·)
  given : ∀ handle ∈ d.slotHandles, handle ≤ d.lastHandle
  rendered : (d.rendered.map (·.1)).Pairwise (· < ·)
  rendered_given : ∀ handle ∈ d.rendered.map (·.1), handle ≤ d.lastHandle

/-- What a session is responsible for on a display. -/
def view (d : Display) : View := ⟨d.slots.map (·.term), d.synced, d.preview, d.placeholder⟩

/-- Displays with the same handles. -/
structure Alike (d d' : Display) : Prop where
  handles : d'.slotHandles = d.slotHandles
  lastHandle : d'.lastHandle = d.lastHandle
  rendered : d'.rendered = d.rendered

/-- Displays with the same handles that show the same. -/
structure Same (d d' : Display) : Prop extends Alike d d' where
  view : d'.view = d.view

variable {d d' : Display}

lemma Sound.nodup (h : d.Sound) : d.slotHandles.Nodup := h.slots.imp Nat.ne_of_lt

lemma Alike.sound (h : Alike d d') (hd : d.Sound) : d'.Sound := by
  constructor
  · rw [h.handles]
    exact hd.slots
  · rw [h.handles, h.lastHandle]
    exact hd.given
  · rw [h.rendered]
    exact hd.rendered
  · rw [h.rendered, h.lastHandle]
    exact hd.rendered_given

lemma alike_modifySlot (handle : Nat) {change : DisplaySlot → DisplaySlot} (d : Display)
    (kept : ∀ s, (change s).handle = s.handle) : Alike d (d.modifySlot handle change) := by
  refine ⟨?_, rfl, rfl⟩
  simp only [slotHandles, modifySlot, List.map_map]
  apply List.map_congr_left
  intro s _
  simp only [Function.comp_apply]
  split
  · exact kept s
  · rfl

/-- Changing a slot but for its handle and its term leaves the display the same. -/
lemma same_modifySlot (handle : Nat) {change : DisplaySlot → DisplaySlot} (d : Display)
    (kept : ∀ s, (change s).handle = s.handle ∧ (change s).term = s.term) :
    Same d (d.modifySlot handle change) := by
  refine ⟨alike_modifySlot handle d fun s => (kept s).1, ?_⟩
  have terms : (d.modifySlot handle change).slots.map (·.term) = d.slots.map (·.term) := by
    simp only [modifySlot, List.map_map]
    apply List.map_congr_left
    intro s _
    simp only [Function.comp_apply]
    split
    · exact (kept s).2
    · rfl
  simp only [view, terms]
  rfl

lemma same_write (handle : Nat) (value : Text) (d : Display) : Same d (d.write handle value) := by
  unfold write
  split
  · exact ⟨⟨rfl, rfl, rfl⟩, rfl⟩
  · exact same_modifySlot handle d fun _ => ⟨rfl, rfl⟩

lemma same_setValidity (handle : Nat) (message : Option Text) (d : Display) :
    Same d (d.setValidity handle message) := by
  unfold setValidity
  split
  · exact ⟨⟨rfl, rfl, rfl⟩, rfl⟩
  · exact same_modifySlot handle d fun _ => ⟨rfl, rfl⟩

lemma same_setSelected (handle : Nat) (selected : Bool) (d : Display) :
    Same d (d.setSelected handle selected) :=
  same_modifySlot handle d fun _ => ⟨rfl, rfl⟩

end Display

/-! ## Effects on a display -/

namespace Session

/-- A session that knows the slots of its display. -/
structure Aligned (s : Session) : Prop where
  sound : s.display.Sound
  handles : s.display.slotHandles = s.handles

variable {s : Session} {index : Nat} {t : Term}

lemma Aligned.length (h : s.Aligned) : s.display.view.terms.length = s.handles.length := by
  rw [← h.handles]
  simp [Display.view, Display.slotHandles]

/-- What leaves the handles alone leaves the session aligned. -/
lemma Aligned.alike {d : Display} (h : s.Aligned) (alike : Display.Alike s.display d) :
    Aligned { s with display := d } :=
  ⟨alike.sound h.sound, alike.handles.trans h.handles⟩

/-- A change that leaves every display the same may be made at any handle. -/
lemma Aligned.atHandle {change : Nat → Display → Display} (h : s.Aligned) (handle : Option Nat)
    (same : ∀ handle d, Display.Same d (change handle d)) :
    (s.atHandle handle change).Aligned ∧
      (s.atHandle handle change).display.view = s.display.view := by
  cases handle with
  | none => exact ⟨h, rfl⟩
  | some handle =>
    have same := same handle s.display
    exact ⟨h.alike same.toAlike, same.view⟩

lemma Aligned.updateTerm {handle : Nat} (h : s.Aligned) (found : s.handles[index]? = some handle) :
    Aligned { s with display := s.display.updateTerm handle t } ∧
      (s.display.updateTerm handle t).view =
        { s.display.view with terms := s.display.view.terms.set index t } := by
  rw [← h.handles] at found
  have terms : (s.display.updateTerm handle t).slots.map (·.term) =
      (s.display.slots.map (·.term)).set index t :=
    map_key_eq_set h.sound.nodup found fun _ => rfl
  refine ⟨h.alike (Display.alike_modifySlot handle s.display fun _ => rfl), ?_⟩
  simp only [Display.view, terms]
  rfl

lemma Aligned.render (h : s.Aligned) (behind : s.handles.length ≤ index) :
    Aligned { s with
        display := (s.display.render t index).2
        handles := s.handles.take index ++ (s.display.render t index).1 :: s.handles.drop index } ∧
      (s.display.render t index).2.view =
        { s.display.view with terms := s.display.view.terms ++ [t] } := by
  have length : s.display.slots.length ≤ index := by
    rw [← h.handles] at behind
    simpa [Display.slotHandles] using behind
  have slots : (s.display.render t index).2.slots =
      s.display.slots ++ [⟨s.display.lastHandle + 1, t, t.label, none, false⟩] := by
    simp only [Display.render]
    rw [List.take_of_length_le length, List.drop_eq_nil_of_le length]
  have handles : (s.display.render t index).2.slotHandles =
      s.handles ++ [s.display.lastHandle + 1] := by
    rw [← h.handles]
    simp only [Display.slotHandles, slots, List.map_append, List.map_cons, List.map_nil]
  obtain ⟨ascending, given⟩ := ascending_concat h.sound.slots h.sound.given
  refine ⟨⟨⟨?_, ?_, h.sound.rendered, ?_⟩, ?_⟩, ?_⟩
  · rw [handles, ← h.handles]
    exact ascending
  · rw [handles, ← h.handles]
    exact given
  · intro handle hh
    exact Nat.le_succ_of_le (h.sound.rendered_given handle hh)
  · rw [handles, List.take_of_length_le behind, List.drop_eq_nil_of_le behind]
    rfl
  · simp only [Display.view, slots, List.map_append, List.map_cons, List.map_nil]
    rfl

lemma Aligned.remove {handle : Nat} (h : s.Aligned) (found : s.handles[index]? = some handle) :
    Aligned { s with
        handles := s.handles.eraseIdx index
        display := s.display.remove handle } ∧
      (s.display.remove handle).view =
        { s.display.view with terms := s.display.view.terms.eraseIdx index } := by
  rw [← h.handles] at found
  have slots : (s.display.remove handle).slots = s.display.slots.eraseIdx index :=
    filter_key_eq_eraseIdx h.sound.nodup found
  have handles : (s.display.remove handle).slotHandles = s.display.slotHandles.eraseIdx index := by
    simp only [Display.slotHandles, slots, List.eraseIdx_map]
  refine ⟨⟨⟨?_, ?_, h.sound.rendered, h.sound.rendered_given⟩, ?_⟩, ?_⟩
  · rw [handles]
    exact h.sound.slots.sublist (List.eraseIdx_sublist _ _)
  · rw [handles]
    exact fun handle hh => h.sound.given handle (List.mem_of_mem_eraseIdx hh)
  · rw [handles, h.handles]
  · simp only [Display.view, slots, List.eraseIdx_map]
    rfl

/-- Carrying out an effect keeps a session aligned and changes the view as the effect says. -/
lemma enact_view (h : s.Aligned) (effect : Effect) :
    (s.enact effect).Aligned ∧ (s.enact effect).display.view = s.display.view.after effect := by
  cases effect with
  | renderTerm index t =>
    simp only [enact, Session.renderTerm]
    -- A term is rendered in the slot of its index, or in a new slot behind all others.
    cases found : s.handles[index]? with
    | some handle =>
      have lt : index < s.display.view.terms.length := by
        rw [h.length]
        exact (List.getElem?_eq_some_iff.mp found).1
      simp only [View.after, if_pos lt]
      exact h.updateTerm found
    | none =>
      have behind : s.handles.length ≤ index := List.getElem?_eq_none_iff.mp found
      have ge : ¬ index < s.display.view.terms.length := by
        rw [h.length]
        exact Nat.not_lt_of_le behind
      simp only [View.after, if_neg ge]
      exact h.render behind
  | updateTerm index t =>
    simp only [enact]
    cases found : s.handles[index]? with
    | some handle => exact h.updateTerm found
    | none =>
      -- Past the last slot both the session and the view stay as they are.
      have behind : s.display.view.terms.length ≤ index := by
        rw [h.length]
        exact List.getElem?_eq_none_iff.mp found
      have same : s.display.view.after (.updateTerm index t) = s.display.view := by
        simp only [View.after, List.set_eq_of_length_le behind]
      exact ⟨h, same.symm⟩
  | removeSlot index =>
    simp only [enact, Session.removeSlot]
    cases found : s.handles[index]? with
    | some handle => exact h.remove found
    | none =>
      have behind : s.display.view.terms.length ≤ index := by
        rw [h.length]
        exact List.getElem?_eq_none_iff.mp found
      have same : s.display.view.after (.removeSlot index) = s.display.view := by
        simp only [View.after, List.eraseIdx_of_length_le behind]
      exact ⟨h, same.symm⟩
  | writeValue slot value =>
    exact h.atHandle _ fun handle d => Display.same_write handle value d
  | setSelected index selected =>
    exact h.atHandle _ fun handle d => Display.same_setSelected handle selected d
  | setValidity slot message =>
    exact h.atHandle _ fun handle d => Display.same_setValidity handle message d
  | reportValidity slot => exact h.atHandle _ fun _ _ => ⟨⟨rfl, rfl, rfl⟩, rfl⟩
  | focus slot => exact h.atHandle _ fun _ _ => ⟨⟨rfl, rfl, rfl⟩, rfl⟩
  | _ => exact ⟨h.alike ⟨rfl, rfl, rfl⟩, rfl⟩

end Session
end FilterEditor
