import FilterEditor.Proofs.Handles

/-!
# Taking over slots

A session that loads the slots of its display keeps those that were rendered before it came and
removes all others. What is left are exactly the terms stored in the slots that were kept, in the
order in which they were rendered.
-/

namespace FilterEditor

namespace Display

/-- The handles of the slots that were rendered before an editor came and are still there. -/
def prerenderedHandles (d : Display) : List Nat := d.prerendered.map (·.1)

/-- The terms that these slots hold. -/
def prerenderedTerms (d : Display) : List Term :=
  d.prerenderedHandles.filterMap fun handle => (d.slot? handle).map (·.term)

variable {d : Display}

lemma Sound.slot?_eq (h : d.Sound) {slot : DisplaySlot} (mem : slot ∈ d.slots) :
    d.slot? slot.handle = some slot := by
  cases found : d.slot? slot.handle with
  | none =>
    have none := List.find?_eq_none.mp found slot mem
    simp at none
  | some other =>
    have same : other.handle = slot.handle := by simpa using List.find?_some found
    have eq : other = slot :=
      List.inj_on_of_nodup_map h.nodup (List.mem_of_find?_eq_some found) mem same
    rw [eq]

lemma slot?_isSome_iff {handle : Nat} : (d.slot? handle).isSome ↔ handle ∈ d.slotHandles := by
  simp only [slot?, slotHandles, List.find?_isSome, List.mem_map, decide_eq_true_eq]

/-- The slots that were rendered before have handles in ascending order. -/
lemma Sound.prerendered (h : d.Sound) : d.prerenderedHandles.Pairwise (· < ·) :=
  h.rendered.sublist (List.filter_sublist.map _)

lemma mem_slotHandles_of_prerendered {handle : Nat} (h : handle ∈ d.prerenderedHandles) :
    handle ∈ d.slotHandles := by
  obtain ⟨⟨_, _⟩, mem, rfl⟩ := List.mem_map.mp h
  exact slot?_isSome_iff.mp (List.mem_filter.mp mem).2

/-- Removing slots one after the other keeps the others. -/
lemma foldl_remove (stale : List Nat) (d : Display) :
    ∃ focused, stale.foldl (fun d handle => d.remove handle) d =
      { d with slots := d.slots.filter (·.handle ∉ stale), focused } := by
  induction stale generalizing d with
  | nil => exact ⟨d.focused, by simp⟩
  | cons handle rest ih =>
    obtain ⟨focused, eq⟩ := ih (d.remove handle)
    refine ⟨focused, ?_⟩
    rw [List.foldl_cons, eq]
    simp only [remove, List.filter_filter, List.mem_cons, not_or]
    congr 2
    funext slot
    rw [Bool.and_comm, Bool.decide_and]

end Display

namespace Session

variable {s : Session}

/-- The slots that are left when a session takes over those that were rendered before. -/
lemma adopt_slots
    (covered : ∀ slot ∈ s.display.slots,
      slot.handle ∈ s.handles ∨ slot.handle ∈ s.display.prerenderedHandles) :
    ∃ focused, (s.adopt (some s.display.prerenderedHandles)).display =
      { s.display with
        slots := s.display.slots.filter (·.handle ∈ s.display.prerenderedHandles), focused } := by
  have kept : s.display.slots.filter
      (·.handle ∉ s.handles.filter (!s.display.prerenderedHandles.contains ·)) =
        s.display.slots.filter (·.handle ∈ s.display.prerenderedHandles) := by
    apply List.filter_congr
    intro slot mem
    rw [decide_eq_decide, List.mem_filter]
    simp only [Bool.not_eq_true', List.contains_eq_mem, decide_eq_false_iff_not]
    rcases covered slot mem with known | pre <;> tauto
  rw [← kept]
  exact Display.foldl_remove _ s.display

/-- A session that takes over the slots that were rendered before is aligned and shows their
terms. -/
lemma adopt_view (sound : s.display.Sound)
    (covered : ∀ slot ∈ s.display.slots,
      slot.handle ∈ s.handles ∨ slot.handle ∈ s.display.prerenderedHandles) :
    (s.adopt (some s.display.prerenderedHandles)).Aligned ∧
      (s.adopt (some s.display.prerenderedHandles)).display.view =
        { s.display.view with terms := s.display.prerenderedTerms } := by
  obtain ⟨focused, eq⟩ := adopt_slots covered
  have sublist : (s.display.slots.filter (·.handle ∈ s.display.prerenderedHandles)).map (·.handle)
      |>.Sublist s.display.slotHandles := List.filter_sublist.map _
  have handles : (s.display.slots.filter (·.handle ∈ s.display.prerenderedHandles)).map (·.handle)
      = s.display.prerenderedHandles := by
    -- Both lists are ascending, so they are equal once they have the same members.
    apply (sound.slots.sublist sublist).eq_of_mem_iff sound.prerendered
    intro handle
    constructor
    · intro h
      obtain ⟨slot, mem, rfl⟩ := List.mem_map.mp h
      simpa using (List.mem_filter.mp mem).2
    · intro h
      obtain ⟨slot, mem, rfl⟩ := List.mem_map.mp (Display.mem_slotHandles_of_prerendered h)
      exact List.mem_map_of_mem (List.mem_filter.mpr ⟨mem, by simpa using h⟩)
  have terms : (s.display.slots.filter (·.handle ∈ s.display.prerenderedHandles)).map (·.term)
      = s.display.prerenderedTerms := by
    unfold Display.prerenderedTerms
    conv_rhs => rw [← handles, List.filterMap_map]
    rw [← List.filterMap_eq_map]
    apply List.filterMap_congr
    intro slot mem
    simp only [Function.comp_apply, sound.slot?_eq (List.mem_filter.mp mem).1, Option.map_some]
  refine ⟨⟨⟨?_, ?_, ?_, ?_⟩, ?_⟩, ?_⟩
  · rw [eq]
    exact sound.slots.sublist sublist
  · rw [eq]
    exact fun handle h => sound.given handle (sublist.subset h)
  · rw [eq]
    exact sound.rendered
  · rw [eq]
    exact sound.rendered_given
  · rw [eq]
    exact handles
  · rw [eq]
    simp only [Display.view, terms]

end Session

/-! ## Rendering beforehand -/

namespace Display

/-- A display on which terms were rendered, and nothing else happened. -/
structure Laid (terms : List Term) (d : Display) : Prop where
  sound : d.Sound
  handles : d.rendered.map (·.1) = d.slotHandles
  slots : d.slots.map (·.term) = terms
  metas : d.rendered.map (·.2) = terms.mapIdx SlotMeta.mk

lemma Laid.concat {terms : List Term} {d : Display} (h : Laid terms d) (t : Term) :
    Laid (terms ++ [t]) (d.prerender t) := by
  have length : d.rendered.length = d.slots.length := by
    simpa [slotHandles] using congrArg List.length h.handles
  have count : d.rendered.length = terms.length := by
    rw [length, ← h.slots, List.length_map]
  have slots : (d.prerender t).slots =
      d.slots ++ [⟨d.lastHandle + 1, t, t.label, none, false⟩] := by
    simp only [prerender, render, length, List.take_length, List.drop_length]
  have handles : (d.prerender t).slotHandles = d.slotHandles ++ [d.lastHandle + 1] := by
    simp only [slotHandles, slots, List.map_append, List.map_cons, List.map_nil]
  have rendered : (d.prerender t).rendered.map (·.1) = d.slotHandles ++ [d.lastHandle + 1] := by
    simp only [prerender, render, List.map_append, h.handles, List.map_cons, List.map_nil]
  have metas : (d.prerender t).rendered.map (·.2) = (terms ++ [t]).mapIdx SlotMeta.mk := by
    simp only [prerender, render, List.map_append, h.metas, List.map_cons, List.map_nil, count,
      List.mapIdx_concat]
  obtain ⟨ascending, given⟩ := ascending_concat h.sound.slots h.sound.given
  refine ⟨⟨?_, ?_, ?_, ?_⟩, ?_, ?_, metas⟩
  · exact handles ▸ ascending
  · exact handles ▸ given
  · exact rendered ▸ ascending
  · exact rendered ▸ given
  · exact rendered.trans handles.symm
  · simp only [slots, List.map_append, h.slots, List.map_cons, List.map_nil]

lemma laid_ofTerms (terms : List Term) : Laid terms (ofTerms terms) := by
  have given : ∀ handle ∈ ([] : List Nat), handle ≤ 0 := fun _ mem => (List.not_mem_nil mem).elim
  have start : Laid [] {} := ⟨⟨.nil, given, .nil, given⟩, rfl, rfl, rfl⟩
  have key : ∀ (rest before : List Term) (d : Display), Laid before d →
      Laid (before ++ rest) (rest.foldl Display.prerender d) := by
    intro rest
    induction rest with
    | nil =>
      intro before d h
      rw [List.append_nil]
      exact h
    | cons t rest ih =>
      intro before d h
      have next := ih (before ++ [t]) _ (h.concat t)
      rw [List.append_assoc] at next
      exact next
  exact key terms [] {} start

/-- Of the slots that were rendered beforehand none is missing. -/
lemma Laid.prerendered {terms : List Term} {d : Display} (h : Laid terms d) :
    d.prerendered = d.rendered := by
  apply List.filter_eq_self.mpr
  rintro ⟨handle, slot⟩ mem
  apply slot?_isSome_iff.mpr
  rw [← h.handles]
  exact List.mem_map_of_mem mem

lemma Laid.prerenderedTerms {terms : List Term} {d : Display} (h : Laid terms d) :
    d.prerenderedTerms = terms := by
  have handles : d.prerenderedHandles = d.slotHandles := by
    rw [prerenderedHandles, h.prerendered, h.handles]
  rw [Display.prerenderedTerms, handles, slotHandles, List.filterMap_map, ← h.slots,
    ← List.filterMap_eq_map]
  apply List.filterMap_congr
  intro slot mem
  simp only [Function.comp_apply, h.sound.slot?_eq mem, Option.map_some]

end Display

namespace Editor

lemma checkSlotsFrom_mapIdx (terms : List Term) (first : Nat) :
    checkSlotsFrom first (terms.mapIdx fun i t => ⟨first + i, t⟩) = .ok () := by
  induction terms generalizing first with
  | nil => rfl
  | cons t rest ih =>
    rw [List.mapIdx_cons]
    have later : (fun (i : Nat) (t : Term) => SlotMeta.mk (first + (i + 1)) t) =
        fun i t => ⟨first + 1 + i, t⟩ := by
      funext i t
      rw [Nat.add_right_comm, Nat.add_assoc]
    rw [later]
    simp only [checkSlotsFrom, Nat.add_zero, if_true]
    exact ih (first + 1)

lemma map_term_mapIdx (terms : List Term) : (terms.mapIdx SlotMeta.mk).map (·.term) = terms := by
  apply List.ext_getElem?
  intro i
  rw [List.getElem?_map, List.getElem?_mapIdx, Option.map_map]
  exact Option.map_id'

/-- Slots with the numbers of their terms are accepted and give the terms back. -/
lemma payloadTerms_mapIdx (terms : List Term) :
    payloadTerms (.slots (terms.mapIdx SlotMeta.mk)) = .ok terms := by
  have check : checkSlots (terms.mapIdx SlotMeta.mk) = .ok () := by
    have h := checkSlotsFrom_mapIdx terms 0
    simp only [Nat.zero_add] at h
    exact h
  simp only [payloadTerms, check, bind, Except.bind, map_term_mapIdx]

end Editor
end FilterEditor
