import FilterEditor.Keymap.File
import FilterEditor.Proofs.Keystroke
import FilterEditor.Proofs.Resolving

/-!
# Characters and their bindings

A binding is written for a character by naming the character, in upper or lower case; typing the character
gives a keystroke whose case does not matter either. The two take case away in two ways, though: a written
name is lowered as Unicode has it, a typed character only if it is an ASCII letter. `typed_matches_iff`
says for which characters they agree: for those of ASCII and for those that are their own lower case. A
binding for any other character is never found by typing it.
-/

namespace FilterEditor

variable {c d : Char}

namespace Keystroke

/-- A character on its own is read as the key of its lower case. -/
lemma read_single (single : Casing.lower c = [d]) : read [c] = .ok ⟨.char d, {}⟩ := by
  have split : splitKey? (Casing.lowerText [c]) = some ([], [d]) := by
    rw [Casing.lowerText_singleton, single]
    exact splitKey?_of_no_names (final_print (.char d))
  exact read_eq_ok_iff.mpr ⟨[], [d], split, rfl, rfl⟩

/-- Both ways to lower a character agree on ASCII and where there is nothing to lower. -/
lemma lower_eq_toLower_iff (single : Casing.lower c = [d]) :
    d = c.toLower ↔ c.toNat < 0x80 ∨ Casing.Lowered c := by
  rw [Casing.Lowered, single, List.singleton_inj]
  by_cases ascii : c.toNat < 0x80
  · have same : [d] = [c.toLower] := single.symm.trans (Casing.lower_ascii ascii)
    exact iff_of_true (List.singleton_inj.mp same) (.inl ascii)
  · have kept : c.toLower = c := Casing.toLower_of_not_capital (by omega)
    rw [kept, or_iff_right ascii]

end Keystroke

namespace Keymap

variable {entry : FileEntry} {b : Binding}

/-- The binding of an entry is on the keystroke that its key is read as. -/
lemma FileEntry.read_of_toBinding (bound : entry.toBinding = .ok b) :
    Keystroke.read entry.key = .ok b.keystroke := by
  unfold FileEntry.toBinding at bound
  cases read : Keystroke.read entry.key with
  | error _ =>
    rw [read] at bound
    cases bound
  | ok k =>
    simp only [read, Except.mapError, bind, Except.bind] at bound
    split at bound
    · cases bound
    · split at bound <;> cases bound
      rfl

lemma mem_candidates_iff {bindings : List Binding} {k : Keystroke} :
    b ∈ (ofBindings bindings).candidates k ↔ b ∈ bindings ∧ b.keystroke = k := by
  rw [candidates_ofBindings, List.mem_filter, decide_eq_true_iff]

/-- A character whose lower case is a single character is read as the key of that one. It is the keystroke
that typing the character gives just if the character is one of ASCII or its own lower case, and just then a
keymap with a binding that a file has for the character finds that binding for what is typed. -/
theorem typed_matches_iff {c d : Char} (single : Casing.lower c = [d]) :
    Keystroke.read [c] = .ok ⟨.char d, {}⟩ ∧
      (Keystroke.read [c] = .ok (.typing c) ↔ c.toNat < 0x80 ∨ Casing.Lowered c) ∧
      ∀ (entry : FileEntry) (b : Binding) (bindings : List Binding), entry.key = [c] →
        entry.toBinding = .ok b → b ∈ bindings →
          (b ∈ (ofBindings bindings).candidates (.typing c) ↔ c.toNat < 0x80 ∨ Casing.Lowered c) := by
  have read := Keystroke.read_single single
  have same : (⟨.char d, {}⟩ : Keystroke) = .typing c ↔ c.toNat < 0x80 ∨ Casing.Lowered c := by
    rw [← Keystroke.lower_eq_toLower_iff single, Keystroke.typing, Keystroke.mk.injEq, Key.char.injEq]
    exact and_iff_left rfl
  refine ⟨read, ?_, ?_⟩
  · rw [read, Except.ok.injEq]
    exact same
  · intro entry b bindings key bound mem
    have on := FileEntry.read_of_toBinding bound
    rw [key, read, Except.ok.injEq] at on
    rw [mem_candidates_iff, ← on]
    exact (and_iff_right mem).trans same

/-- A capital letter of ASCII is matched, and so is a small letter beyond it. -/
theorem typed_matches_iff_letters :
    let b : Binding := ⟨⟨.char 'k', {}⟩, .submit, none⟩
    let u : Binding := ⟨⟨.char 'ä', {}⟩, .reset, none⟩
    Casing.lower 'K' = ['k'] ∧ Casing.lower 'ä' = ['ä'] ∧
      FileEntry.toBinding ⟨['K'], "Submit", none, []⟩ = .ok b ∧
      FileEntry.toBinding ⟨['ä'], "Reset", none, []⟩ = .ok u ∧
      b ∈ (ofBindings [u, b]).candidates (.typing 'K') ∧
      u ∈ (ofBindings [u, b]).candidates (.typing 'ä') := by
  intro b u
  have lower : Casing.lower 'K' = ['k'] := by decide +kernel
  have lower' : Casing.lower 'ä' = ['ä'] := by decide +kernel
  have bound : FileEntry.toBinding ⟨['K'], "Submit", none, []⟩ = .ok b := by decide +kernel
  have bound' : FileEntry.toBinding ⟨['ä'], "Reset", none, []⟩ = .ok u := by decide +kernel
  refine ⟨lower, lower', bound, bound', ?_, ?_⟩
  · exact ((typed_matches_iff lower).2.2 _ b [u, b] rfl bound (by decide)).mpr (.inl (by decide))
  · exact ((typed_matches_iff lower').2.2 _ u [u, b] rfl bound' (by decide)).mpr (.inr lower')

/-- A binding that is written for a capital letter beyond ASCII, or for its small letter, is not found by
typing the capital. -/
theorem typed_misses_capital :
    let b : Binding := ⟨⟨.char 'ä', {}⟩, .submit, none⟩
    Casing.lower 'Ä' = ['ä'] ∧ Keystroke.read ['Ä'] ≠ .ok (.typing 'Ä') ∧
      FileEntry.toBinding ⟨['Ä'], "Submit", none, []⟩ = .ok b ∧
      (ofBindings [b]).candidates (.typing 'Ä') = [] := by
  decide +kernel

end Keymap
end FilterEditor
