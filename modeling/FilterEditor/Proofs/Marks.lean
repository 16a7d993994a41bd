import FilterEditor.Proofs.Upkeep

/-!
# Marks in step

A slot is marked as selected just if its term is: whatever adds to the selection, takes from it or
moves it along with the terms says so to the display. Only a refresh does not. It drops the selection,
but it renders the terms in the slots that are there, and rendering leaves marks alone.
-/

namespace FilterEditor

namespace Editor

/-- Which terms are selected. -/
def marks (e : Editor) : List Bool :=
  (List.range e.terms.length).map fun index => decide (index ∈ e.selected)

/-- A guise with the marks of an editor. -/
def Marked (g : Guise) (e : Editor) : Prop := g.marks = e.marks

/-- A message that drops a selection without a word to the display. -/
def Unmarks (e : Editor) : Message → Prop
  | .refresh => e.selected ≠ []
  | _ => False

variable {scope : Scope} {e : Editor} {placed : Bool} {c : Change} {g : Guise} {index i : Nat}

lemma length_marks (e : Editor) : e.marks.length = e.terms.length := by
  rw [marks, List.length_map, List.length_range]

lemma getElem?_marks (e : Editor) (i : Nat) :
    e.marks[i]? = if i < e.terms.length then some (decide (i ∈ e.selected)) else none := by
  unfold marks
  rw [List.getElem?_map]
  split
  · rename_i lt
    rw [List.getElem?_range lt]
    rfl
  · rename_i past
    rw [List.getElem?_eq_none (by rw [List.length_range]; omega)]
    rfl

lemma marks_restore (terms : List Term) (e : Editor) :
    (e.restore terms).marks = terms.map fun _ => false := by
  have unselected : (e.restore terms).marks = (List.range terms.length).map fun _ => false := rfl
  rw [unselected, List.map_const', List.map_const', List.length_range]

/-! ## Effects on marks -/

/-- Marking slots one after the other changes no others. -/
lemma getElem?_marking (indices : List Nat) (selected : Bool) (items : List Bool) (i : Nat) :
    (Column.marks.replay items (indices.map fun index => .setSelected index selected))[i]? =
      if i ∈ indices then items[i]?.map fun _ => selected else items[i]? := by
  induction indices generalizing items with
  | nil => rfl
  | cons index rest ih =>
    have step : Column.marks.replay items
          ((index :: rest).map fun index => .setSelected index selected) =
        Column.marks.replay (items.set index selected)
          (rest.map fun index => .setSelected index selected) := rfl
    rw [step, ih, List.getElem?_set']
    by_cases here : index = i
    · subst here
      rw [if_pos rfl, if_pos List.mem_cons_self]
      cases items[index]? <;> simp
    · rw [if_neg here]
      simp only [List.mem_cons, Ne.symm here, false_or]

/-- The selection is moved along with the terms behind one that goes. -/
lemma mem_shifted {selected : List Nat} {removed : Nat} :
    i ∈ (selected.filter (· ≠ removed)).map (shiftIndex removed) ↔
      (if i < removed then i else i + 1) ∈ selected := by
  simp only [List.mem_map, List.mem_filter, decide_eq_true_eq]
  constructor
  · rintro ⟨j, ⟨mem, ne⟩, rfl⟩
    have back : (if shiftIndex removed j < removed then shiftIndex removed j
        else shiftIndex removed j + 1) = j := by
      unfold shiftIndex
      split <;> split <;> omega
    rw [back]
    exact mem
  · intro mem
    refine ⟨_, ⟨mem, ?_⟩, ?_⟩
    · split <;> omega
    · unfold shiftIndex
      split <;> split <;> omega

/-! ## Steps -/

/-- Marks are right if those that are set are those of slots whose terms join the selection or
leave it. -/
lemma marked_marking {e' : Editor} {selected : Bool} (indices : List Nat) (h : Marked g e)
    (length : e'.terms.length = e.terms.length)
    (chosen : ∀ i < e.terms.length,
      (i ∈ e'.selected ↔ if i ∈ indices then selected = true else i ∈ e.selected)) :
    Marked (g.replay (indices.map fun index => .setSelected index selected)) e' := by
  unfold Marked
  rw [(g.replay_columns _).2.1, h]
  apply List.ext_getElem?
  intro i
  rw [getElem?_marking, getElem?_marks, getElem?_marks, length]
  by_cases lt : i < e.terms.length
  · simp only [if_pos lt, chosen i lt]
    split <;> simp
  · simp [lt]

lemma marked_add (t : Term) (selected : ∀ index ∈ e.selected, index < e.terms.length)
    (h : Marked g e) : Marked (g.replay (e.add t).effects) (e.add t).editor := by
  have behind : ¬ e.terms.length < g.marks.length := by
    rw [h, length_marks]
    exact Nat.lt_irrefl _
  have appended : (g.replay (e.add t).effects).marks = g.marks ++ [false] := if_neg behind
  have grown : (e.add t).editor.terms.length = e.terms.length + 1 := List.length_append
  have unselected : e.terms.length ∉ e.selected := fun mem => Nat.lt_irrefl _ (selected _ mem)
  have same : (e.add t).editor.selected = e.selected := rfl
  unfold Marked
  rw [appended, h, marks, marks, grown, same, List.range_succ, List.map_append, List.map_singleton,
    decide_eq_false unselected]

lemma marked_remove {t : Term} (held : e.terms.get? index = some t) (h : Marked g e) :
    Marked (g.replay (e.remove index).effects) (e.remove index).editor := by
  have erased : (g.replay (e.remove index).effects).marks = g.marks.eraseIdx index := by
    rw [remove_eq held]
    rfl
  have removed := removed_remove held
  have lt : index < e.terms.length := lt_of_get? held
  unfold Marked
  rw [erased, h]
  apply List.ext_getElem?
  intro i
  rw [List.getElem?_eraseIdx, getElem?_marks, getElem?_marks, getElem?_marks, removed.length lt,
    removed.selected]
  simp only [mem_shifted]
  split
  · rename_i before
    have here : i < e.terms.length ∧ i < e.terms.length - 1 := by omega
    rw [if_pos here.1, if_pos here.2]
  · rename_i behind
    have same : i + 1 < e.terms.length ↔ i < e.terms.length - 1 := by omega
    simp only [same]

lemma marked_reload (terms : List Term) (h : Marked g e) :
    Marked (g.replay (e.removalEffects ++ (e.restore terms).renderEffects ++
      (e.restore terms).settledEffects)) (e.restore terms) := by
  have length : g.marks.length = e.terms.length := by rw [h, length_marks]
  unfold Marked
  rw [(g.replay_columns _).2.1, marks_restore]
  exact Column.replay_reload terms length

/-- Every step but a refresh tells the display of the marks that it changes. -/
lemma Step.marked (h : Step scope e placed c) (other : scope ≠ .editing ∧ scope ≠ .loading)
    (he : e.WellFormed) (hg : Marked g e) : Marked (g.replay c.effects) c.editor := by
  cases h with
  | add => exact marked_add _ he.selected hg
  | confirm => exact marked_add _ he.selected hg
  | remove held => exact marked_remove held hg
  | selectAll =>
    refine marked_marking _ hg rfl fun i lt => ?_
    rw [if_pos (List.mem_range.mpr lt)]
    exact iff_of_true (List.mem_range.mpr lt) rfl
  | deselect =>
    refine marked_marking _ hg rfl fun i _ => ?_
    by_cases old : i ∈ e.selected <;> simp [Editor.deselect, old]
  | @select index =>
    refine marked_marking [index] hg rfl fun i _ => ?_
    by_cases new : i = index <;> simp [mem_insertIndex, new]
  | @unselect index =>
    refine marked_marking [index] hg rfl fun i _ => ?_
    by_cases old : i = index <;> simp [old]
  | @write slot _ _ _ edited =>
    obtain ⟨_, _, _, _, rfl⟩ := edit_eq edited
    cases slot <;> exact hg
  | @move slot _ _ _ _ edited =>
    obtain ⟨_, _, _, _, rfl⟩ := edit_eq edited
    cases slot <;> exact hg
  | @replace index _ t =>
    -- Another term at an index is as selected as the one before.
    have length : (e.terms.withTerms (e.terms.terms.set index t)).length = e.terms.length :=
      List.length_set
    have same : ({ e with terms := e.terms.withTerms (e.terms.terms.set index t) } : Editor).marks =
        e.marks := by
      unfold marks
      rw [length]
    unfold Marked
    rw [same]
    exact hg
  | reload => exact marked_reload _ hg
  | adopt loading => exact (other.2 loading).elim
  | refresh editing => exact (other.1 editing).elim
  | «show» shows =>
    rw [Guise.replay_shows shows]
    exact hg
  | _ => exact hg

/-! ## Messages -/

/-- A refresh renders the terms in the slots that there are. -/
lemma marked_refresh_iff (he : e.WellFormed) (h : Marked g e) :
    Marked (g.replay e.refresh.effects) e.refresh.editor ↔ e.selected = [] := by
  have length : g.marks.length = e.terms.length := by rw [h, length_marks]
  have still : (g.replay e.refresh.effects).marks = e.marks := by
    rw [(g.replay_columns _).2.1, Column.replay_rerendered length fun _ _ => rfl]
    exact h
  have cleared : e.refresh.editor.marks = e.terms.terms.map fun _ => false := marks_restore _ e
  unfold Marked
  rw [still, cleared]
  constructor
  · intro none
    apply List.eq_nil_iff_forall_not_mem.mpr
    intro i mem
    have lt := he.selected i mem
    have marked : e.marks[i]? = some true := by
      rw [getElem?_marks, if_pos lt, decide_eq_true mem]
    rw [none, List.getElem?_map] at marked
    cases held : e.terms.terms[i]? <;> simp [held] at marked
  · intro none
    unfold marks
    rw [none, List.map_const']
    simp only [List.not_mem_nil, decide_false, List.map_const', List.length_range]
    rfl

/-- A message that takes over no slots keeps the marks right, apart from one that drops a selection. -/
lemma marked_respond_iff {message : Message} (he : e.WellFormed) (plain : message.isPlain)
    (h : Marked g e) :
    Marked (g.replay (e.respond message).effects) (e.respond message).editor ↔
      ¬ e.Unmarks message := by
  have steps : ∀ scope, scope ≠ .editing ∧ scope ≠ .loading → Trace scope e (e.respond message) →
      Marked (g.replay (e.respond message).effects) (e.respond message).editor :=
    fun _ other trace => trace.guise (fun _ _ _ _ he step hg => step.marked other he hg) he h
  by_cases again : message = .refresh
  · subst again
    exact (marked_refresh_iff he h).trans not_not.symm
  · have calm : ¬ e.Unmarks message := by
      cases message with
      | refresh => exact (again rfl).elim
      | _ => exact id
    refine iff_of_true ?_ calm
    by_cases loading : message.scope = .loading
    · obtain ⟨payload, rfl⟩ := Message.load_of_scope loading
      exact Session.respond_load_guise plain (fun terms => marked_reload terms h) h
    · -- Apart from a refresh, what only edits are steps of every other scope as well.
      by_cases editing : message.scope = .editing
      · exact steps .saving ⟨nofun, nofun⟩ (settled_editing editing again e).trace
      · exact steps _ ⟨editing, loading⟩ (settled_respond e message).trace

end Editor

namespace Session

/-- A slot is marked as selected just if its term is selected. -/
def MarksSelected (s : Session) : Prop := s.display.slots.map (·.selected) = s.editor.marks

/-- Whatever happens to a session on a display that showed nothing before, its slots are marked just if
their terms are selected, as long as no refresh drops a selection. -/
theorem marks_in_step_iff {e : Editor} {d : Display} (keymap : Keymap) (actions : List Action)
    (reachable : e.Reachable) (blank : d.Blank) (plain : ∀ action ∈ actions, action.isPlain) :
    let s := start e d keymap
    s.MarksSelected ∧
      ((∀ delivery ∈ s.history actions, delivery.after.MarksSelected) ∧
          (actions.foldl act s).MarksSelected ↔
        ∀ delivery ∈ s.history actions, ¬ delivery.session.editor.Unmarks delivery.message) :=
  relates_history_iff (R := Editor.Marked) Editor.Unmarks keymap actions
    (fun _ _ _ => Editor.marked_respond_iff) (Editor.marks_restore _ _).symm reachable blank plain

/-- One of two marked slots goes, and the other stays marked. -/
theorem marks_in_step_removed :
    let s := [Action.dispatch .selectAll, .dispatch (.remove 0)].foldl act
      (start columnAndOperator {} {})
    s.editor.selected = [0] ∧ s.display.slots.map (·.selected) = [true] ∧ s.MarksSelected := by
  have calm := (marks_in_step_iff {} [.dispatch .selectAll, .dispatch (.remove 0)]
    reachable_columnAndOperator blank_empty (by decide)).2.mpr
  refine ⟨by decide, by decide, (calm ?_).2⟩
  simp only [history, deliveries, List.cons_append, List.nil_append, List.forall_mem_cons]
  exact ⟨id, id, List.forall_mem_nil _⟩

/-- All slots are marked, and a refresh leaves the marks without a selection. -/
theorem marks_left_behind :
    let s := [Action.dispatch .selectAll, .dispatch .refresh].foldl act
      (start columnAndOperator {} {})
    s.editor.selected = [] ∧ s.display.slots.map (·.selected) = [true, true] ∧
      ¬ s.MarksSelected := by
  unfold MarksSelected
  decide

end Session
end FilterEditor
