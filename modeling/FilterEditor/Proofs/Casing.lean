import FilterEditor.Text.Casing
import Mathlib.Data.List.Basic

/-!
# Lower case

A text that is lowered holds only characters that are their own lower case, so lowering it again changes
nothing. In the table this is a matter of bounds: no run reaches the images of another, but for runs that
take every second code point, whose images lie between their members (`changing_spare`). On ASCII the
table agrees with the lower case of ASCII letters, which leaves all other characters as they are.
-/

namespace FilterEditor.Casing

/-- A character that is its own lower case. -/
def Lowered (c : Char) : Prop := lower c = [c]

instance (c : Char) : Decidable (Lowered c) := inferInstanceAs (Decidable (lower c = [c]))

/-- Whether a run is known to take none of the images of another: it lies below them or above them, or
takes every second code point and the images lie between those. -/
def Run.spares (s r : Run) : Bool :=
  s.last.blt r.image || (r.image + (r.last - r.first)).blt s.first ||
    (s.step == 2 && (r.step == 2 || r.last == r.first) && (r.image + s.first) % 2 == 1)

/-- Runs over all characters with another lower case; those that are expanded stand alone. -/
def changing : List Run := lowerRuns ++ lowerExpansions.map fun e => ⟨e.1, e.1, 1, e.1⟩

variable {c d : Char} {n m : Nat} {r s : Run} {text before : Text}

/-! ## The table -/

lemma Run.map?_eq_some_iff :
    r.map? n = some m ↔
      (r.first ≤ n ∧ n ≤ r.last ∧ (n - r.first) % r.step = 0) ∧ r.image + (n - r.first) = m := by
  rw [Run.map?, Option.ite_none_right_eq_some, Option.some.injEq]

lemma Run.map?_of_spares (spares : s.spares r) (image : r.map? n = some m) : s.map? m = none := by
  obtain ⟨⟨low, high, stepped⟩, rfl⟩ := Run.map?_eq_some_iff.mp image
  rw [Option.eq_none_iff_forall_ne_some]
  intro k taken
  obtain ⟨⟨low', high', stepped'⟩, -⟩ := Run.map?_eq_some_iff.mp taken
  simp only [Run.spares, Bool.or_eq_true, Bool.and_eq_true, Nat.blt_eq, beq_iff_eq] at spares
  rcases spares with (below | above) | ⟨⟨two, alike⟩, odd⟩
  · omega
  · omega
  · rw [two] at stepped'
    rcases alike with two' | single
    · rw [two'] at stepped
      omega
    · omega

lemma changing_spare : lowerRuns.all fun r => changing.all (·.spares r) := by decide +kernel

/-- A character that no run takes is its own lower case. -/
lemma lowered_of_untaken (untaken : ∀ r ∈ changing, r.map? c.toNat = none) : Lowered c := by
  obtain ⟨runs, expansions⟩ := List.forall_mem_append.mp untaken
  have whole : lowerExpansions.lookup c.toNat = none := by
    rw [List.lookup_eq_none_iff]
    intro e mem
    have other := expansions _ (List.mem_map_of_mem mem)
    rw [bne_iff_ne]
    rintro same
    rw [same, Run.map?, if_pos ⟨Nat.le_refl _, Nat.le_refl _, Nat.mod_one _⟩] at other
    cases other
  rw [Lowered, lower, mapChar, whole, List.findSome?_eq_none_iff.mpr runs]

lemma lowered_image (mem : r ∈ lowerRuns) (image : r.map? n = some m) : Lowered (Char.ofNat m) := by
  by_cases valid : m.isValidChar
  · have point : (Char.ofNat m).toNat = m := by
      rw [Char.ofNat, dif_pos valid]
      rfl
    have spared := List.all_eq_true.mp (List.all_eq_true.mp changing_spare r mem)
    apply lowered_of_untaken
    rw [point]
    exact fun s mem => Run.map?_of_spares (spared s mem) image
  · have null : Char.ofNat m = '\x00' := by
      rw [Char.ofNat, dif_neg valid]
      rfl
    rw [null]
    decide +kernel

lemma lowered_expansion : ∀ e ∈ lowerExpansions, ∀ n ∈ e.2, Lowered (Char.ofNat n) := by
  decide +kernel

/-- What a character is lowered to is its own lower case. -/
lemma lowered_of_mem_lower (mem : d ∈ lower c) : Lowered d := by
  unfold lower mapChar at mem
  split at mem
  · rename_i image expanded
    obtain ⟨before, behind, listed, -⟩ := List.lookup_eq_some_iff.mp expanded
    have entry : (c.toNat, image) ∈ lowerExpansions := by
      rw [listed]
      exact List.mem_append_right before List.mem_cons_self
    obtain ⟨n, point, rfl⟩ := List.mem_map.mp mem
    exact lowered_expansion (c.toNat, image) entry n point
  · rename_i whole
    split at mem
    · rename_i image found
      obtain ⟨r, run, image⟩ := List.exists_of_findSome?_eq_some found
      obtain rfl := List.mem_singleton.mp mem
      exact lowered_image run image
    · rename_i unmapped
      obtain rfl := List.mem_singleton.mp mem
      rw [Lowered, lower, mapChar, whole, unmapped]

/-! ## Texts -/

lemma lowered_of_mem_lowerAfter (mem : d ∈ lowerAfter before text) : Lowered d := by
  induction text generalizing before with
  | nil => cases mem
  | cons c rest ih =>
    rcases List.mem_append.mp mem with mem | mem
    · split at mem
      · split at mem <;> obtain rfl := List.mem_singleton.mp mem <;> decide +kernel
      · exact lowered_of_mem_lower mem
    · exact ih mem

/-- Every character of a lowered text is its own lower case. -/
lemma lowered_of_mem_lowerText (mem : d ∈ lowerText text) : Lowered d :=
  lowered_of_mem_lowerAfter mem

lemma lowerAfter_of_lowered (h : ∀ c ∈ text, Lowered c) : lowerAfter before text = text := by
  induction text generalizing before with
  | nil => rfl
  | cons c rest ih =>
    obtain ⟨first, more⟩ := List.forall_mem_cons.mp h
    have other : c ≠ 'Σ' := by
      rintro rfl
      revert first
      decide +kernel
    rw [lowerAfter, if_neg other, first, ih more]
    rfl

/-- A text of such characters is its own lower case. -/
lemma lowerText_of_lowered (h : ∀ c ∈ text, Lowered c) : lowerText text = text :=
  lowerAfter_of_lowered h

/-- On its own, a character is lowered alike in a text: no word ends in it. -/
lemma lowerText_singleton (c : Char) : lowerText [c] = lower c := by
  rw [lowerText, lowerAfter, lowerAfter, List.append_nil]
  split
  · rename_i sigma
    rw [sigma]
    decide +kernel
  · rfl

/-! ## ASCII -/

/-- No capital letter of ASCII. -/
lemma toLower_of_not_capital (other : ¬ (0x41 ≤ c.toNat ∧ c.toNat ≤ 0x5A)) : c.toLower = c :=
  dif_neg fun ⟨low, high⟩ => other ⟨low, high⟩

lemma changing_ascii : ∀ r ∈ changing, 0x80 ≤ r.first ∨ r.first = 0x41 ∧ r.last = 0x5A := by
  decide +kernel

/-- On ASCII the table agrees with the lower case of ASCII letters. -/
lemma lower_ascii (ascii : c.toNat < 0x80) : lower c = [c.toLower] := by
  by_cases capital : 0x41 ≤ c.toNat ∧ c.toNat ≤ 0x5A
  · have letters : ∀ n < 26, lower (Char.ofNat (0x41 + n)) = [(Char.ofNat (0x41 + n)).toLower] := by
      decide
    have letter := letters (c.toNat - 0x41) (by omega)
    rwa [Nat.add_sub_cancel' capital.1, Char.ofNat_toNat] at letter
  · rw [toLower_of_not_capital capital]
    refine lowered_of_untaken fun r mem => if_neg ?_
    rintro ⟨low, high, -⟩
    rcases changing_ascii r mem with beyond | ⟨first, last⟩ <;> omega

lemma lowered_of_isLower (small : c.isLower) : Lowered c := by
  have letter : 0x61 ≤ c.toNat ∧ c.toNat ≤ 0x7A := by
    have isLower : c.isLower = (decide ('a'.val ≤ c.val) && decide (c.val ≤ 'z'.val)) := rfl
    rw [isLower, Bool.and_eq_true, decide_eq_true_iff, decide_eq_true_iff, UInt32.le_iff_toNat_le,
      UInt32.le_iff_toNat_le] at small
    exact small
  have kept : c.toLower = c := toLower_of_not_capital (by omega)
  rw [Lowered, lower_ascii (by omega), kept]

end FilterEditor.Casing
