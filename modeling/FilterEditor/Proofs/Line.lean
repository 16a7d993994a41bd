import FilterEditor.Line
import Mathlib.Tactic.Common

/-!
# Sound lines

A line is sound if its cursor stands between its ends and its text holds no line break. Every line
that is made or edited by the operations of `FilterEditor.Line` is sound; `Keeps` says so of a
change that is passed around as a function.
-/

namespace FilterEditor.Line

/-- The cursor stands in the text, and the text is a single line. -/
structure Sound (l : Line) : Prop where
  cursor_le : l.cursor ≤ l.text.length
  single : ∀ c ∈ l.text, c ≠ '\n' ∧ c ≠ '\r'

/-- A change that leads from sound lines to sound lines. -/
def Keeps (change : Line → Option Line) : Prop :=
  ∀ l l', l.Sound → change l = some l' → l'.Sound

lemma accepts_iff {c : Char} : accepts c = true ↔ c ≠ '\n' ∧ c ≠ '\r' := by
  simp [accepts]

lemma sound_empty : Sound {} := ⟨Nat.le_refl 0, nofun⟩

/-- A line without text is empty. -/
lemma Sound.eq_empty {l : Line} (h : l.Sound) (empty : l.text = []) : l = {} := by
  obtain ⟨text, cursor⟩ := l
  cases empty
  have cursor : cursor = 0 := Nat.le_zero.mp h.cursor_le
  rw [cursor]

lemma sound_ofText (text : Text) : (ofText text).Sound := by
  refine ⟨Nat.le_refl _, ?_⟩
  intro c hc
  exact accepts_iff.mp (List.mem_filter.mp hc).2

lemma keeps_moveLeft : Keeps moveLeft? := by
  intro l l' h e
  unfold moveLeft? at e
  split at e
  · cases e
  · cases e
    exact ⟨Nat.le_trans (Nat.sub_le _ _) h.cursor_le, h.single⟩

/-- Moving to the right keeps a line sound: it stops at the end. -/
lemma keeps_moveRight : Keeps moveRight? := by
  intro l l' h e
  unfold moveRight? atEnd length at e
  split at e
  · cases e
  · rename_i hend
    cases e
    have lt : l.cursor < l.text.length := by simpa using hend
    exact ⟨lt, h.single⟩

lemma text_moveLeft (l l' : Line) (h : l.moveLeft? = some l') : l'.text = l.text := by
  unfold moveLeft? at h
  split at h <;> cases h
  rfl

lemma text_moveRight (l l' : Line) (h : l.moveRight? = some l') : l'.text = l.text := by
  unfold moveRight? at h
  split at h <;> cases h
  rfl

lemma keeps_moveStart : Keeps fun l => some l.moveStart := by
  intro l l' h e
  cases e
  exact ⟨Nat.zero_le _, h.single⟩

lemma keeps_moveEnd : Keeps fun l => some l.moveEnd := by
  intro l l' h e
  cases e
  exact ⟨Nat.le_refl _, h.single⟩

/-- Where the cursor stands behind the text, a character goes there. -/
lemma insertChar_end {c : Char} (accepted : accepts c) (text : Text) :
    insertChar? c ⟨text, text.length⟩ = some ⟨text ++ [c], (text ++ [c]).length⟩ := by
  simp [insertChar?, accepted]

/-- Inserting a character keeps a line sound: line breaks are turned away. -/
lemma keeps_insertChar (c : Char) : Keeps (insertChar? c) := by
  intro l l' h e
  unfold insertChar? at e
  split at e
  · rename_i hc
    cases e
    constructor
    · have le := h.cursor_le
      simp only [List.length_append, List.length_take, List.length_cons, List.length_drop]
      omega
    · intro x hx
      rcases List.mem_append.mp hx with hx | hx
      · exact h.single x (List.mem_of_mem_take hx)
      · rcases List.mem_cons.mp hx with rfl | hx
        · exact accepts_iff.mp hc
        · exact h.single x (List.mem_of_mem_drop hx)
  · cases e

lemma keeps_deleteBackward : Keeps deleteBackward? := by
  intro l l' h e
  unfold deleteBackward? at e
  split at e
  · cases e
  · cases e
    have le := h.cursor_le
    constructor
    · rw [List.length_eraseIdx]
      dsimp only
      split <;> omega
    · intro c hc
      exact h.single c (List.mem_of_mem_eraseIdx hc)

lemma keeps_deleteForward : Keeps deleteForward? := by
  intro l l' h e
  unfold deleteForward? atEnd length at e
  split at e
  · cases e
  · rename_i hend
    cases e
    have lt : l.cursor < l.text.length := by simpa using hend
    constructor
    · rw [List.length_eraseIdx]
      dsimp only
      split <;> omega
    · intro c hc
      exact h.single c (List.mem_of_mem_eraseIdx hc)

end FilterEditor.Line
