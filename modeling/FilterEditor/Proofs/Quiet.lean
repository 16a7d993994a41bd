import FilterEditor.Proofs.WellFormed

/-!
# Steps that read no slot

A slot is read when its text is committed or saved. Most of what an editor does reads none: tokens
and previews are added, terms removed, texts edited, cursors moved. Such steps are `Quiet`: they do
not look at the suggestion that is carried to the next read, and leave it as it is.
-/

namespace FilterEditor

/-- Whether an effect tells that a slot was read. -/
def Effect.tellsReading : Effect → Bool
  | .updateTerm _ _ | .notify .resetCompletion => true
  | _ => false

/-- The first term that effects show as read from a slot: saved in its place or committed. -/
def taken? : List Effect → Option Term
  | [] => none
  | .updateTerm _ t :: _ => some t
  | .notify .resetCompletion :: .renderTerm _ t :: _ => some t
  | _ :: rest => taken? rest

/-- Effects that tell of no slot that was read. -/
def Unread (effects : List Effect) : Prop := effects.any (·.tellsReading) = false

variable {first rest : List Effect}

lemma Unread.append (h : Unread first) (h' : Unread rest) : Unread (first ++ rest) := by
  rw [Unread, List.any_append, h, h']
  rfl

lemma unread_map {α : Type} {f : α → Effect} (quiet : ∀ x, (f x).tellsReading = false)
    (xs : List α) : Unread (xs.map f) := by
  rw [Unread, List.any_map]
  refine List.any_eq_false.mpr fun x _ => ?_
  rw [Function.comp_apply, quiet]
  exact Bool.false_ne_true

lemma Unread.skip (h : Unread first) : taken? (first ++ rest) = taken? rest := by
  induction first with
  | nil => rfl
  | cons effect first ih =>
    obtain ⟨head, tail⟩ := Bool.or_eq_false_iff.mp h
    rw [List.cons_append, ← ih tail]
    cases effect with
    | updateTerm => cases head
    | notify event =>
      cases event with
      | resetCompletion => cases head
      | _ => rfl
    | _ => rfl

lemma Unread.taken? (h : Unread first) : taken? first = none := by
  have skipped : FilterEditor.taken? (first ++ []) = FilterEditor.taken? [] := h.skip
  rw [List.append_nil] at skipped
  exact skipped

/-- Nothing behind a term that was read matters. -/
lemma taken?_append {t : Term} (taken : taken? first = some t) :
    taken? (first ++ rest) = some t := by
  induction first using taken?.induct with
  | case1 => cases taken
  | case2 => exact taken
  | case3 => exact taken
  | case4 effect others replaced committed ih =>
    rw [taken?] at taken
    · cases others with
      | nil => cases taken
      | cons next others =>
        rw [List.cons_append, List.cons_append, taken?]
        · exact ih taken
        · exact replaced
        · rintro index t' more rfl eq
          cases eq
          exact committed _ _ _ rfl rfl
    · exact replaced
    · exact committed

namespace Editor

/-- The editor with another carried suggestion. -/
def carrying (suggestion : Option Term) (e : Editor) : Editor := { e with carried := suggestion }

end Editor

/-- The change with another carried suggestion. -/
def Change.carrying (suggestion : Option Term) (c : Change) : Change :=
  ⟨c.editor.carrying suggestion, c.effects⟩

namespace Editor

variable {e : Editor} {step : Editor → Change}

/-- A step that reads no slot and does not look at the carried suggestion. -/
structure Quiet (step : Editor → Change) : Prop where
  carrying : ∀ e r, step (e.carrying r) = (step e).carrying r
  unread : ∀ e, Unread (step e).effects

lemma carrying_self {r : Option Term} (held : e.carried = r) : e.carrying r = e := by
  rw [← held]
  rfl

/-- A quiet step carries nothing where nothing was carried. -/
lemma Quiet.gone (h : Quiet step) (gone : e.carried = none) : (step e).editor.carried = none := by
  rw [← carrying_self gone, h.carrying]
  rfl

lemma Quiet.andThen {first step : Editor → Change} (h : Quiet first) (h' : Quiet step) :
    Quiet fun e => (first e).andThen step where
  carrying := fun e r => by
    simp only [h.carrying, Change.andThen, Change.carrying, h'.carrying]
  unread := fun e => (h.unread e).append (h'.unread _)

/-- What is shown without a look at the carried suggestion. -/
lemma quiet_show {shown : Editor → List Effect} (same : ∀ e r, shown (e.carrying r) = shown e)
    (unread : ∀ e, Unread (shown e)) : Quiet fun e => ⟨e, shown e⟩ where
  carrying := fun e r => by rw [same]; rfl
  unread := unread

lemma Quiet.andShow {shown : Editor → List Effect} (h : Quiet step)
    (same : ∀ e r, shown (e.carrying r) = shown e) (unread : ∀ e, Unread (shown e)) :
    Quiet fun e => (step e).andShow shown :=
  h.andThen (quiet_show same unread)

/-! ## Quiet steps -/

/-- A step that depends on something else than the carried suggestion is quiet if it is for every
value of it. -/
lemma Quiet.depending {α : Type} (read : Editor → α) (step : α → Editor → Change)
    (same : ∀ e r, read (e.carrying r) = read e) (quiet : ∀ x, Quiet (step x)) :
    Quiet fun e => step (read e) e where
  carrying := fun e r => by
    rw [same]
    exact (quiet _).carrying e r
  unread := fun e => (quiet _).unread e

lemma quiet_unchanged : Quiet unchanged := ⟨fun _ _ => rfl, fun _ => rfl⟩

lemma quiet_placeholder : Quiet fun e => ⟨e, e.placeholderEffects⟩ :=
  quiet_show (fun _ _ => rfl) fun _ => rfl

lemma quiet_request (slot : Slot) (label : Text) :
    Quiet fun e => ⟨e, e.requestEffects slot label⟩ := by
  refine quiet_show (fun e r => rfl) fun e => ?_
  unfold requestEffects
  split <;> rfl

lemma quiet_add (t : Term) : Quiet (add t) := ⟨fun _ _ => rfl, fun _ => rfl⟩

lemma quiet_enter (slot : Slot) : Quiet (enter slot) := by
  cases slot with
  | input => exact ⟨fun _ _ => rfl, fun _ => rfl⟩
  | term index => exact ⟨fun _ _ => rfl, fun _ => rfl⟩

lemma quiet_remove (index : Nat) : Quiet (remove index) where
  carrying := fun e r => by
    cases held : e.terms.get? index with
    | none => rw [remove_absent held, remove_absent (e := e.carrying r) held]; rfl
    | some t =>
      have refocused : ((e.carrying r).without index).refocus index =
          ((e.without index).refocus index).carrying r := by
        have focus : ((e.carrying r).without index).focus = (e.without index).focus := rfl
        unfold refocus
        rw [focus]
        split
        · rfl
        · split <;> rfl
      rw [remove_eq held, remove_eq (e := e.carrying r) held, refocused]
      rfl
  unread := fun e => by
    cases held : e.terms.get? index with
    | none => rw [remove_absent held]; rfl
    | some t => rw [remove_eq held]; rfl

lemma quiet_pop : Quiet pop := by
  refine Quiet.depending (fun e => (e.hasTerms, e.terms.length))
    (fun (filled, length) e =>
      if filled then (e.remove (length - 1)).andShow fun _ => [.notify .abortCompletion]
      else e.unchanged) (fun _ _ => rfl) fun (filled, length) => ?_
  cases filled with
  | true =>
    have called : Quiet fun e => (e.remove (length - 1)).andShow
        fun _ => [.notify .abortCompletion] :=
      (quiet_remove _).andShow (fun _ _ => rfl) fun _ => rfl
    exact called
  | false => exact quiet_unchanged

lemma quiet_clearSelected : Quiet clearSelected := by
  have removals : ∀ (indices : List Nat) (step : Editor → Change), Quiet step → Quiet fun e =>
      indices.foldl (fun c index => c.andThen (remove index)) (step e) := by
    intro indices
    induction indices with
    | nil => exact fun _ h => h
    | cons index rest ih => exact fun step h => ih _ (h.andThen (quiet_remove index))
  refine Quiet.depending (fun e => (e.hasTerms, e.selected))
    (fun (filled, selected) e =>
      if filled then selected.reverse.foldl (fun c index => c.andThen (remove index)) e.unchanged
      else e.unchanged) (fun _ _ => rfl) fun (filled, selected) => ?_
  cases filled with
  | true => exact removals _ _ quiet_unchanged
  | false => exact quiet_unchanged

lemma quiet_deselect : Quiet deselect :=
  ⟨fun _ _ => rfl, fun _ => unread_map (fun _ => rfl) _⟩

lemma quiet_selectAll : Quiet selectAll :=
  ⟨fun _ _ => rfl, fun _ => unread_map (fun _ => rfl) _⟩

lemma quiet_toggle (index : Nat) : Quiet (toggle index) := by
  constructor
  · intro e r
    have length : (e.carrying r).terms.length = e.terms.length := rfl
    have selected : (e.carrying r).selected = e.selected := rfl
    unfold toggle
    rw [length, selected]
    split
    · rfl
    · split <;> rfl
  · intro e
    unfold toggle
    split
    · rfl
    · split <;> rfl

lemma quiet_cyclePreview (direction : Direction) : Quiet (cyclePreview direction) := by
  constructor
  · intro e r
    have next : ((e.carrying r).preview.bind fun current =>
        (e.carrying r).grammar.cyclePreview current (direction == .down || direction == .right)) =
        e.preview.bind fun current =>
          e.grammar.cyclePreview current (direction == .down || direction == .right) := rfl
    simp only [cyclePreview, next]
    split <;> rfl
  · intro e
    simp only [cyclePreview]
    split <;> rfl

/-- An edit does not look at the carried suggestion. -/
lemma edit_carrying (slot : Slot) (change : Line → Option Line) (e : Editor) (r : Option Term) :
    (e.carrying r).edit? slot change = (e.edit? slot change).map (carrying r) := by
  have line : (e.carrying r).line? slot = e.line? slot := by cases slot <;> rfl
  unfold edit?
  rw [line, Option.map_map]
  cases slot <;> rfl

lemma quiet_moveInSlot (slot : Slot) (change : Line → Option Line) :
    Quiet fun e => (e.moveInSlot slot change).unchanged := by
  refine ⟨fun e r => ?_, fun _ => rfl⟩
  simp only [moveInSlot, edit_carrying]
  cases e.edit? slot change <;> rfl

lemma quiet_moveSideways (slot : Slot) (atEdge : Line → Bool) (move : Line → Option Line)
    {target : Editor → Option Slot} (same : ∀ e r, target (e.carrying r) = target e) :
    Quiet (moveSideways slot atEdge move target) := by
  have line : ∀ e r, (carrying r e).line? slot = e.line? slot := by
    intro e r
    cases slot <;> rfl
  have moved : Quiet fun e =>
      if (e.line? slot).any atEdge && e.hasTerms then ⟨e, focusEffects (target e)⟩
      else (e.moveInSlot slot move).unchanged := by
    refine Quiet.depending (fun e => ((e.line? slot).any atEdge && e.hasTerms, target e))
      (fun (leaves, target) e =>
        if leaves then ⟨e, focusEffects target⟩ else (e.moveInSlot slot move).unchanged)
      (fun e r => by rw [line, same]; rfl) fun (leaves, target) => ?_
    cases leaves with
    | true => exact quiet_show (fun _ _ => rfl) fun _ => unread_map (fun _ => rfl) _
    | false => exact quiet_moveInSlot slot move
  cases slot with
  | input => exact moved.andThen quiet_deselect
  | term index => exact moved

lemma quiet_moveCursor (slot : Slot) (direction : Direction) :
    Quiet (moveCursor slot direction) := by
  cases direction with
  | up => exact quiet_cyclePreview .up
  | down => exact quiet_cyclePreview .down
  | left => exact quiet_moveSideways slot _ _ fun _ _ => rfl
  | right => exact quiet_moveSideways slot _ _ fun _ _ => rfl

lemma quiet_moveEnd (slot : Slot) : Quiet (moveEnd slot) := by
  have moved := quiet_moveInSlot slot fun line => some line.moveEnd
  cases slot with
  | input => exact moved.andThen quiet_deselect
  | term index => exact moved

lemma quiet_commitPreview (slot : Slot) : Quiet (commitPreview slot) := by
  constructor
  · intro e r
    have preview : (e.carrying r).preview = e.preview := rfl
    unfold commitPreview
    rw [preview]
    split <;> rfl
  · intro e
    unfold commitPreview
    split <;> rfl

lemma quiet_afterTermEdit (index : Nat) : Quiet (afterTermEdit (.term index)) := by
  constructor
  · intro e r
    have check : (e.carrying r).check (.term index) ((e.carrying r).slotText (.term index)) =
        e.check (.term index) (e.slotText (.term index)) := rfl
    simp only [afterTermEdit, check]
    split <;> rfl
  · intro e
    simp only [afterTermEdit]
    split
    · rfl
    · have cleared : Unread [.setValidity (.term index) none] := rfl
      exact cleared.append ((quiet_request _ _).unread _)

lemma quiet_write (slot : Slot) : Quiet fun e => ⟨e, e.writeEffects slot⟩ :=
  quiet_show (fun e r => by cases slot <;> rfl) fun _ => rfl

/-- Editing a term slot reads nothing: the draft is read once it is saved. -/
lemma quiet_editSlot (index : Nat) (change : Line → Option Line) :
    Quiet (editSlot (.term index) change) := by
  have followed : Quiet fun e => Change.andThen ⟨e, e.writeEffects (.term index)⟩
      (afterTermEdit (.term index)) :=
    (quiet_write _).andThen (quiet_afterTermEdit index)
  constructor
  · intro e r
    simp only [editSlot, edit_carrying]
    cases e.edit? (.term index) change with
    | none => rfl
    | some e' => exact followed.carrying e' r
  · intro e
    simp only [editSlot]
    cases e.edit? (.term index) change with
    | none => rfl
    | some e' => exact followed.unread e'

lemma quiet_markRequired : Quiet markRequired := by
  constructor
  · intro e r
    have manages : (e.carrying r).settings = e.settings := rfl
    unfold markRequired
    rw [manages]
    split <;> rfl
  · intro e
    unfold markRequired
    split <;> rfl

end Editor
end FilterEditor
