import FilterEditor.Proofs.Guise
import Mathlib.Data.List.Induction

/-!
# Removing the selection

The selected terms go one by one, the last one first, and each removal moves the selection and the
focus of later terms. A selection is ascending, so nothing that is still to go is ever moved:
`Cleared` says what is left once the terms at some indices are gone, and `Cleared.remove` that a
term in front of all of them may go next. In the end the terms are those that were not selected, in
their order, and a slot that stays has moved past the selected ones before it.
-/

namespace FilterEditor

/-- The items of a list whose indices are not gone, in order. -/
def remaining {α : Type} (gone : List Nat) (items : List α) : List α :=
  (items.zipIdx.filter fun item => item.2 ∉ gone).map (·.1)

/-- The index of an item once the items at the given indices are gone: how many before it are not. -/
def newIndex (gone : List Nat) (index : Nat) : Nat := (List.range index).countP (· ∉ gone)

/-- A slot once the terms at the given indices are gone: the trailing input takes the place of one that
is gone. -/
def Slot.clear (gone : List Nat) : Slot → Slot
  | .input => .input
  | .term index => if index ∈ gone then .input else .term (newIndex gone index)

/-- The index of the slot that an effect removes. -/
def Effect.removed? : Effect → Option Nat
  | .removeSlot index => some index
  | _ => none

/-- The indices of the slots that effects remove, one after the other. -/
def removals (effects : List Effect) : List Nat := effects.filterMap Effect.removed?

variable {α : Type} {gone : List Nat} {items : List α} {index i j : Nat}

/-! ## Indices -/

lemma newIndex_succ (gone : List Nat) (i : Nat) :
    newIndex gone (i + 1) = newIndex gone i + if i ∈ gone then 0 else 1 := by
  rw [newIndex, List.range_succ, List.countP_append, newIndex, List.countP_singleton]
  by_cases mem : i ∈ gone <;> simp [mem]

lemma newIndex_mono (gone : List Nat) (le : i ≤ j) : newIndex gone i ≤ newIndex gone j :=
  (List.range_sublist.mpr le).countP_le

/-- Nothing moves that stands in front of all that goes. -/
lemma newIndex_of_le (h : ∀ k ∈ gone, i ≤ k) : newIndex gone i = i := by
  have all : ∀ k ∈ List.range i, decide (k ∉ gone) = true := by
    intro k lt
    have lt := List.mem_range.mp lt
    exact decide_eq_true fun mem => Nat.not_le.mpr lt (h k mem)
  rw [newIndex, List.countP_eq_length.mpr all, List.length_range]

/-- What stands behind an index in front of all that goes stays behind it. -/
lemma newIndex_past (front : ∀ k ∈ gone, index < k) (behind : index < i) :
    index < newIndex gone i := by
  have le : newIndex gone (index + 1) ≤ newIndex gone i := newIndex_mono gone behind
  rwa [newIndex_of_le fun k mem => front k mem] at le

lemma newIndex_cons (new : index ∉ gone) (i : Nat) :
    newIndex gone i = newIndex (index :: gone) i + if index < i then 1 else 0 := by
  induction i with
  | zero => rfl
  | succ i ih =>
    rw [newIndex_succ, newIndex_succ, ih]
    simp only [List.mem_cons]
    by_cases here : i = index
    · subst here
      simp [new]
    · by_cases mem : i ∈ gone <;> simp only [here, mem, or_true, or_false, if_true, if_false] <;>
        split <;> split <;> omega

/-- An index in front of all that is gone is hit just by itself, and the others move past it. -/
lemma newIndex_front (front : ∀ k ∈ gone, index < k) (i : Nat) :
    (newIndex gone i = index ↔ i = index) ∧
      (i ≠ index → Editor.shiftIndex index (newIndex gone i) = newIndex (index :: gone) i) := by
  have new : index ∉ gone := fun mem => Nat.lt_irrefl index (front index mem)
  have step := newIndex_cons new i
  rcases Nat.lt_or_ge index i with behind | before
  · -- The index itself is among those that are left before `i`.
    have past : index < newIndex gone i := newIndex_past front behind
    refine ⟨by omega, fun _ => ?_⟩
    rw [Editor.shiftIndex, if_pos past]
    rw [if_pos behind] at step
    omega
  · have still : newIndex gone i = i :=
      newIndex_of_le fun k mem => Nat.le_trans before (Nat.le_of_lt (front k mem))
    rw [if_neg (Nat.not_lt.mpr before), Nat.add_zero] at step
    refine ⟨by rw [still], fun _ => ?_⟩
    rw [Editor.shiftIndex, if_neg (by omega), step]

/-! ## Lists -/

lemma remaining_concat (gone : List Nat) (items : List α) (item : α) :
    remaining gone (items ++ [item]) =
      remaining gone items ++ if items.length ∈ gone then [] else [item] := by
  unfold remaining
  rw [List.zipIdx_append, List.filter_append, List.map_append]
  by_cases mem : items.length ∈ gone <;> simp [mem]

lemma length_remaining (gone : List Nat) (items : List α) :
    (remaining gone items).length = newIndex gone items.length := by
  induction items using List.reverseRecOn with
  | nil => rfl
  | append_singleton items item ih =>
    rw [remaining_concat, List.length_append, ih, List.length_append, List.length_singleton,
      newIndex_succ]
    split <;> rfl

lemma remaining_nil (items : List α) : remaining [] items = items := by
  have all : ∀ item ∈ items.zipIdx, decide (item.2 ∉ []) = true := fun _ _ => by simp
  rw [remaining, List.filter_eq_self.mpr all, List.zipIdx_map_fst]

/-- Once all indices are gone, nothing is left. -/
lemma remaining_all (all : ∀ i < items.length, i ∈ gone) : remaining gone items = [] := by
  apply List.length_eq_zero_iff.mp
  rw [length_remaining, newIndex, List.countP_eq_zero]
  intro i lt
  simp [all i (List.mem_range.mp lt)]

/-- Where all that is gone stands behind an index, that index goes as if nothing else had gone. -/
lemma remaining_cons (front : ∀ k ∈ gone, index < k) (items : List α) :
    remaining (index :: gone) items = (remaining gone items).eraseIdx index := by
  induction items using List.reverseRecOn with
  | nil => rfl
  | append_singleton items item ih =>
    have length := length_remaining gone items
    rw [remaining_concat, remaining_concat, ih]
    simp only [List.mem_cons]
    rcases Nat.lt_or_ge index items.length with long | short
    · have ne : items.length ≠ index := (Nat.ne_of_lt long).symm
      have past : index < (remaining gone items).length := length ▸ newIndex_past front long
      simp only [ne, false_or]
      rw [List.eraseIdx_append_of_lt_length past]
    · -- Nothing has gone from a list that ends before the index.
      have behind : ∀ k ∈ gone, items.length < k :=
        fun k mem => Nat.lt_of_le_of_lt short (front k mem)
      have kept : items.length ∉ gone := fun mem => Nat.lt_irrefl _ (behind _ mem)
      rw [newIndex_of_le fun k mem => Nat.le_of_lt (behind k mem)] at length
      simp only [kept, or_false, if_false]
      rw [List.eraseIdx_of_length_le (by omega)]
      by_cases here : items.length = index
      · rw [if_pos here, ← here, ← length, List.eraseIdx_append_of_length_le (Nat.le_refl _),
          Nat.sub_self]
        rfl
      · rw [if_neg here, List.eraseIdx_of_length_le]
        rw [List.length_append, List.length_singleton]
        omega

/-- An item that stays is found at its new index. -/
lemma getElem?_remaining (stays : i ∉ gone) (lt : i < items.length) :
    (remaining gone items)[newIndex gone i]? = items[i]? := by
  induction items using List.reverseRecOn with
  | nil => cases lt
  | append_singleton items item ih =>
    have length := length_remaining gone items
    rw [remaining_concat]
    rcases Nat.lt_or_ge i items.length with inside | last
    · have before : newIndex gone (i + 1) = newIndex gone i + 1 := by
        rw [newIndex_succ, if_neg stays]
      have le : newIndex gone (i + 1) ≤ newIndex gone items.length := newIndex_mono gone inside
      have found : newIndex gone i < (remaining gone items).length := by omega
      rw [List.getElem?_append_left found, List.getElem?_append_left inside, ih inside]
    · rw [List.length_append, List.length_singleton] at lt
      have here : i = items.length := by omega
      subst here
      rw [if_neg stays, ← length, List.getElem?_concat_length, List.getElem?_concat_length]

/-- Erasing ascending indices from the last to the first leaves the items that are not gone. -/
lemma foldr_eraseIdx (ascending : gone.Pairwise (· < ·)) (items : List α) :
    gone.foldr (fun index items => items.eraseIdx index) items = remaining gone items := by
  induction gone with
  | nil => exact (remaining_nil items).symm
  | cons index gone ih =>
    obtain ⟨front, ascending⟩ := List.pairwise_cons.mp ascending
    rw [List.foldr_cons, ih ascending, remaining_cons front]

/-! ## Slots -/

/-- A slot that some have gone before is removed, or moves on. -/
lemma Slot.clear_cons (front : ∀ k ∈ gone, index < k) (slot : Slot) :
    ((slot.clear gone).after (.removeSlot index)).getD .input = slot.clear (index :: gone) := by
  cases slot with
  | input => rfl
  | term i =>
    obtain ⟨hit, moved⟩ := newIndex_front front i
    by_cases mem : i ∈ gone
    · simp only [clear, List.mem_cons, mem, or_true, if_true]
      rfl
    · simp only [clear, List.mem_cons, mem, or_false, if_false, Slot.after, hit]
      by_cases here : i = index
      · simp only [here, if_true, Option.getD_none]
      · simp only [here, if_false, moved here, Option.getD_some]

namespace Editor

variable {scope : Scope} {e e' : Editor} {placed : Bool} {c : Change}

/-! ## Selections are ascending -/

lemma ascending_insertIndex {selected : List Nat} (ascending : selected.Pairwise (· < ·))
    (new : index ∉ selected) : (insertIndex index selected).Pairwise (· < ·) := by
  induction selected with
  | nil => exact List.pairwise_singleton _ _
  | cons first rest ih =>
    obtain ⟨least, rest_ascending⟩ := List.pairwise_cons.mp ascending
    obtain ⟨ne, new⟩ := not_or.mp (mt List.mem_cons.mpr new)
    unfold insertIndex
    split
    · rename_i lt
      refine List.pairwise_cons.mpr ⟨fun k mem => ?_, ascending⟩
      rcases List.mem_cons.mp mem with rfl | mem
      · exact lt
      · exact Nat.lt_trans lt (least k mem)
    · rename_i ge
      refine List.pairwise_cons.mpr ⟨fun k mem => ?_, ih rest_ascending new⟩
      rcases mem_insertIndex.mp mem with rfl | mem
      · omega
      · exact least k mem

lemma ascending_shifted {selected : List Nat} (ascending : selected.Pairwise (· < ·)) (removed : Nat) :
    ((selected.filter (· ≠ removed)).map (shiftIndex removed)).Pairwise (· < ·) := by
  refine List.pairwise_map.mpr ((ascending.filter _).imp_of_mem fun {a b} ha hb lt => ?_)
  have ne_a : a ≠ removed := by simpa using (List.mem_filter.mp ha).2
  have ne_b : b ≠ removed := by simpa using (List.mem_filter.mp hb).2
  unfold shiftIndex
  split <;> split <;> omega

/-- Every step keeps the selection in ascending order. -/
lemma Step.ascending (h : Step scope e placed c) (he : e.selected.Pairwise (· < ·)) :
    c.editor.selected.Pairwise (· < ·) := by
  cases h with
  | @remove index _ held =>
    rw [(removed_remove held).selected]
    exact ascending_shifted he index
  | selectAll => exact List.pairwise_lt_range
  | deselect => exact .nil
  | select _ new => exact ascending_insertIndex he new
  | unselect => exact he.filter _
  | @write slot _ _ _ edited =>
    obtain ⟨_, _, _, _, rfl⟩ := edit_eq edited
    cases slot <;> exact he
  | @move slot _ _ _ _ edited =>
    obtain ⟨_, _, _, _, rfl⟩ := edit_eq edited
    cases slot <;> exact he
  | reload => exact .nil
  | adopt => exact .nil
  | refresh => exact .nil
  | _ => exact he

lemma Reachable.ascending (h : e.Reachable) : e.selected.Pairwise (· < ·) := by
  obtain ⟨start, messages, started, rfl⟩ := h
  obtain ⟨_, _, _, _, rfl⟩ := started.eq_restore
  exact invariant_run (P := fun e => e.selected.Pairwise (· < ·))
    (fun _ _ _ _ => Step.ascending) .nil messages

/-! ## Removing one after the other -/

/-- What is left of an editor once the terms at the given indices are gone. -/
structure Cleared (gone : List Nat) (e e' : Editor) : Prop where
  terms : e'.terms.terms = remaining gone e.terms.terms
  selected : e'.selected = (e.selected.filter (· ∉ gone)).map (newIndex gone)
  focus : e'.focus = e.focus.clear gone
  /-- A slot that keeps the focus keeps its draft and its message. -/
  kept : e'.focus = .input ∨ e'.draft = e.draft ∧ e'.validity = e.validity
  input : e'.input = e.input
  carried : e'.carried = e.carried

lemma cleared_refl (e : Editor) : Cleared [] e e := by
  have still : newIndex [] = id := funext fun i => newIndex_of_le nofun
  refine ⟨(remaining_nil _).symm, ?_, ?_, .inr ⟨rfl, rfl⟩, rfl, rfl⟩
  · have all : ∀ i ∈ e.selected, decide (i ∉ []) = true := fun _ _ => by simp
    rw [still, List.map_id, List.filter_eq_self.mpr all]
  · cases focus : e.focus with
    | input => rfl
    | term index => simp [Slot.clear, still]

lemma carried_remove (index : Nat) (e : Editor) : (e.remove index).editor.carried = e.carried := by
  cases held : e.terms.get? index with
  | none =>
    rw [remove_absent held]
    rfl
  | some t =>
    rw [remove_eq held]
    obtain ⟨_, _, _, eq⟩ := refocus_eq index (e.without index)
    rw [eq]
    rfl

/-- The term in front of all that are gone may go next. -/
lemma Cleared.remove {t : Term} (h : Cleared gone e e') (front : ∀ k ∈ gone, index < k)
    (held : e'.terms.get? index = some t) : Cleared (index :: gone) e (e'.remove index).editor := by
  have removed := removed_remove held
  have focus : (e'.remove index).editor.focus = e.focus.clear (index :: gone) := by
    rw [removed.focus, h.focus, Slot.clear_cons front]
  refine ⟨?_, ?_, focus, ?_, removed.input.trans h.input, (carried_remove index e').trans h.carried⟩
  · rw [removed.terms, h.terms, remaining_cons front]
  · -- What is selected and stays is moved past the one that goes now.
    rw [removed.selected, h.selected, List.filter_map, List.map_map, List.filter_filter]
    have same : ∀ i : Nat, (((fun i => decide (i ≠ index)) ∘ newIndex gone) i &&
        decide (i ∉ gone)) = decide (i ∉ index :: gone) := by
      intro i
      have hit := (newIndex_front front i).1
      simp [hit]
    rw [List.filter_congr fun i _ => same i]
    apply List.map_congr_left
    intro i mem
    have stays : i ∉ index :: gone := by simpa using (List.mem_filter.mp mem).2
    exact (newIndex_front front i).2 (List.ne_of_not_mem_cons stays)
  · rcases h.kept with input | ⟨draft, validity⟩
    · left
      rw [removed.focus, input]
      rfl
    · exact removed.kept.imp_right fun ⟨draft', validity'⟩ =>
        ⟨draft'.trans draft, validity'.trans validity⟩

lemma removals_remove {t : Term} (held : e.terms.get? index = some t) :
    removals (e.remove index).effects = [index] := by
  rw [remove_eq held]
  rfl

/-- Terms are removed from the last to the first, each by one effect. -/
lemma cleared_removals (ascending : gone.Pairwise (· < ·)) (within : ∀ i ∈ gone, i < e.terms.length) :
    let c := gone.foldr (fun index c => c.andThen (remove index)) e.unchanged
    Cleared gone e c.editor ∧ removals c.effects = gone.reverse := by
  induction gone with
  | nil => exact ⟨cleared_refl e, rfl⟩
  | cons index gone ih =>
    obtain ⟨front, ascending⟩ := List.pairwise_cons.mp ascending
    obtain ⟨lt, within⟩ := List.forall_mem_cons.mp within
    obtain ⟨cleared, removed⟩ := ih ascending within
    simp only [List.foldr_cons]
    generalize gone.foldr (fun index c => c.andThen (remove index)) e.unchanged = c
      at cleared removed ⊢
    have here : index < c.editor.terms.terms.length := by
      rw [cleared.terms, length_remaining]
      exact newIndex_past front lt
    have held : c.editor.terms.get? index = some c.editor.terms.terms[index] :=
      List.getElem?_eq_getElem here
    refine ⟨cleared.remove front held, ?_⟩
    have effects : removals (c.andThen (Editor.remove index)).effects =
        removals c.effects ++ removals (c.editor.remove index).effects := List.filterMap_append
    rw [effects, removed, removals_remove held, List.reverse_cons]

/-- Clearing a selection removes what is selected, from the last term to the first. -/
lemma cleared_clearSelected (ascending : e.selected.Pairwise (· < ·))
    (within : ∀ i ∈ e.selected, i < e.terms.length) :
    Cleared e.selected e e.clearSelected.editor ∧
      removals e.clearSelected.effects = e.selected.reverse := by
  unfold clearSelected
  split
  · rw [List.foldl_reverse]
    exact cleared_removals ascending within
  · rename_i none
    have empty : e.selected = [] := by
      apply List.eq_nil_iff_forall_not_mem.mpr
      intro i mem
      have lt : i < e.terms.terms.length := within i mem
      have bare : e.terms.terms = [] := by simpa [hasTerms, Sequence.isEmpty] using none
      rw [bare] at lt
      cases lt
    rw [empty]
    exact ⟨cleared_refl e, rfl⟩

/-- Removing the selection leaves the terms that were not selected, in order, and nothing selected. The
focus goes along with its term, with draft and message, or to the trailing input with a selected
one. The input and the carried suggestion stay, and the slots that the display is told to remove, one
after the other, are those of the selected terms. -/
theorem clearSelected_removes_selection (reachable : e.Reachable) :
    let answer := e.update .clearSelected
    answer.1.terms.terms = remaining e.selected e.terms.terms ∧ answer.1.selected = [] ∧
      (∀ index, e.focus = .term index → index ∉ e.selected →
        answer.1.focus = .term (newIndex e.selected index) ∧
          answer.1.terms.get? (newIndex e.selected index) = e.terms.get? index ∧
            answer.1.draft = e.draft ∧ answer.1.validity = e.validity) ∧
      (∀ index, e.focus = .term index → index ∈ e.selected →
        answer.1.focus = .input ∧ answer.1.draft = none ∧ answer.1.validity = none) ∧
      (e.focus = .input → answer.1.focus = .input) ∧
      answer.1.input = e.input ∧ answer.1.carried = e.carried ∧
      ∀ {α : Type} (slots : List α),
        (removals answer.2.effects).foldl List.eraseIdx slots = remaining e.selected slots := by
  intro answer
  have he := reachable.wellFormed
  have ascending := reachable.ascending
  obtain ⟨cleared, removed⟩ := cleared_clearSelected ascending he.selected
  have after : answer.1 = e.clearSelected.editor := rfl
  have sound : answer.1.FocusSound := (reachable.run [.clearSelected]).wellFormed.focus
  have told : removals answer.2.effects = e.selected.reverse := by
    have effects : answer.2.effects =
        e.clearSelected.effects ++ [.setPlaceholder answer.1.placeholder] :=
      Command.effects_ofEffects _
    have last : removals [.setPlaceholder answer.1.placeholder] = [] := rfl
    rw [effects, ← removed, removals, List.filterMap_append]
    exact (congrArg _ last).trans (List.append_nil _)
  have lands : answer.1.focus = e.focus.clear e.selected := cleared.focus
  refine ⟨cleared.terms, ?_, fun index focus stays => ?_, fun index focus gone => ?_, fun focus => ?_,
    cleared.input, cleared.carried, fun slots => ?_⟩
  · rw [after, cleared.selected, List.filter_eq_nil_iff.mpr (by simp)]
    rfl
  · have moved : answer.1.focus = .term (newIndex e.selected index) := by
      rw [lands, focus, Slot.clear, if_neg stays]
    have same := getElem?_remaining stays (he.focus.term index focus).1
    rw [← cleared.terms] at same
    refine ⟨moved, same, cleared.kept.resolve_left fun input => ?_⟩
    cases input.symm.trans moved
  · have left : answer.1.focus = .input := by rw [lands, focus, Slot.clear, if_pos gone]
    exact ⟨left, sound.input left⟩
  · rw [lands, focus]
    rfl
  · rw [told, List.foldl_reverse]
    exact foldr_eraseIdx ascending slots

/-- Around a draft that stays, a term before it, one right before it and one behind it are selected and
go. -/
theorem clearSelected_removes_selection_around :
    let b : Condition := ⟨['b'], ['!', '='], .text ['w'], none⟩
    let tree := Tree.chain .all [.condition ⟨['a'], ['='], .text ['v'], none⟩, .condition b]
    let e := (ofTree {} tree).run
      [.focused (.term 3), .deleteBackward, .insertChar '|', .toggle 5, .toggle 0, .toggle 2]
    let answer := e.update .clearSelected
    e.Reachable ∧ e.selected = [0, 2, 5] ∧ answer.1.serialized = "= & b w" ∧
      answer.1.terms.terms = remaining [0, 2, 5] e.terms.terms ∧ answer.1.focus = .term 1 ∧
        answer.1.draft = some ⟨['|'], 1⟩ ∧
          (removals answer.2.effects).foldl List.eraseIdx (List.range 7) = [1, 3, 4, 6] := by
  intro b tree e
  have reachable : e.Reachable := ⟨_, _, .ofTree {} tree, rfl⟩
  have selected : e.selected = [0, 2, 5] := by decide
  obtain ⟨terms, _, stays, _, _, _, _, told⟩ := clearSelected_removes_selection reachable
  obtain ⟨focus, _, draft, _⟩ := stays 3 (by decide) (by decide)
  have slots := told (List.range 7)
  rw [selected] at terms focus slots
  exact ⟨reachable, selected, by decide, terms, focus.trans (by decide), draft.trans (by decide),
    slots.trans (by decide)⟩

end Editor
end FilterEditor
