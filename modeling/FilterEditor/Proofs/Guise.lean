import FilterEditor.Display
import FilterEditor.Proofs.Keeping

/-!
# The guise of the slots

Beside its term, a slot shows a text, whether it is selected and a validation message. Each of these is
a column over the slots, which effects rearrange and write: slots that are removed or added do so in
every column, and all that tells columns apart is what a new slot shows and what an effect writes.

The guise of a display is its columns with the text and the message of the trailing input. What an
effect makes of it can be told from the guise alone (`Guise.after`), so the guise that a message
leaves behind is compared with the editor that it leaves behind, step by step.
-/

namespace FilterEditor

/-- The term slot that an effect changes, and how. -/
def Effect.touch? : Effect → Option (Nat × (DisplaySlot → DisplaySlot))
  | .renderTerm index t | .updateTerm index t =>
    some (index, fun slot => { slot with term := t, value := t.label })
  | .writeValue (.term index) value => some (index, fun slot => { slot with value })
  | .setSelected index selected => some (index, fun slot => { slot with selected })
  | .setValidity (.term index) message => some (index, fun slot => { slot with validity := message })
  | _ => none

/-- One thing that every term slot shows. -/
structure Column (α : Type) where
  read : DisplaySlot → α
  /-- What a new slot shows. -/
  fresh : Term → α
  /-- What an effect writes, and at which index. -/
  written? : Effect → Option (Nat × α)
  read_fresh : ∀ handle t, read ⟨handle, t, t.label, none, false⟩ = fresh t
  touched : ∀ effect index change, effect.touch? = some (index, change) →
    (∃ item, written? effect = some (index, item) ∧ ∀ slot, read (change slot) = item) ∨
      (written? effect = none ∧ ∀ slot, read (change slot) = read slot)
  untouched : ∀ effect, effect.touch? = none → written? effect = none

namespace Column

/-- The texts of the slots. -/
def texts : Column Text where
  read slot := slot.value
  fresh t := t.label
  written?
    | .renderTerm index t | .updateTerm index t => some (index, t.label)
    | .writeValue (.term index) value => some (index, value)
    | _ => none
  read_fresh _ _ := rfl
  touched effect _ _ touch := by
    cases effect with
    | renderTerm | updateTerm =>
      cases touch
      exact .inl ⟨_, rfl, fun _ => rfl⟩
    | writeValue slot =>
      cases slot <;> cases touch
      exact .inl ⟨_, rfl, fun _ => rfl⟩
    | setSelected =>
      cases touch
      exact .inr ⟨rfl, fun _ => rfl⟩
    | setValidity slot =>
      cases slot <;> cases touch
      exact .inr ⟨rfl, fun _ => rfl⟩
    | _ => cases touch
  untouched effect untouched := by
    cases effect with
    | writeValue slot => cases slot <;> first | rfl | cases untouched
    | _ => first | rfl | cases untouched

/-- Whether the slots are marked as selected. -/
def marks : Column Bool where
  read slot := slot.selected
  fresh _ := false
  written?
    | .setSelected index selected => some (index, selected)
    | _ => none
  read_fresh _ _ := rfl
  touched effect _ _ touch := by
    cases effect with
    | setSelected =>
      cases touch
      exact .inl ⟨_, rfl, fun _ => rfl⟩
    | writeValue slot | setValidity slot =>
      cases slot <;> cases touch
      exact .inr ⟨rfl, fun _ => rfl⟩
    | renderTerm | updateTerm =>
      cases touch
      exact .inr ⟨rfl, fun _ => rfl⟩
    | _ => cases touch
  untouched effect untouched := by
    cases effect <;> first | rfl | cases untouched

/-- The validation messages of the slots. -/
def messages : Column (Option Text) where
  read slot := slot.validity
  fresh _ := none
  written?
    | .setValidity (.term index) message => some (index, message)
    | _ => none
  read_fresh _ _ := rfl
  touched effect _ _ touch := by
    cases effect with
    | setValidity slot =>
      cases slot <;> cases touch
      exact .inl ⟨_, rfl, fun _ => rfl⟩
    | writeValue slot =>
      cases slot <;> cases touch
      exact .inr ⟨rfl, fun _ => rfl⟩
    | renderTerm | updateTerm | setSelected =>
      cases touch
      exact .inr ⟨rfl, fun _ => rfl⟩
    | _ => cases touch
  untouched effect untouched := by
    cases effect with
    | setValidity slot => cases slot <;> first | rfl | cases untouched
    | _ => rfl

variable {α : Type}

/-- A column after an effect has written to it. -/
def write (column : Column α) (items : List α) (effect : Effect) : List α :=
  match column.written? effect with
  | some (index, item) => items.set index item
  | none => items

/-- A column after an effect. -/
def after (column : Column α) (items : List α) (effect : Effect) : List α :=
  match effect with
  | .removeSlot index => items.eraseIdx index
  | .renderTerm index t =>
    if index < items.length then column.write items effect else items ++ [column.fresh t]
  | _ => column.write items effect

/-- A column that a term determines: rendering one again makes the slot look as new. -/
def ShowsTerms (column : Column α) : Prop :=
  ∀ index t, column.written? (.renderTerm index t) = some (index, column.fresh t)

/-- A column after effects, one after the other. -/
def replay (column : Column α) (items : List α) (effects : List Effect) : List α :=
  effects.foldl column.after items

variable {column : Column α} {items : List α}

lemma replay_append (first rest : List Effect) :
    column.replay items (first ++ rest) = column.replay (column.replay items first) rest :=
  List.foldl_append

lemma after_untouched {effect : Effect} (untouched : effect.touch? = none)
    (stays : effect.changesSlots = false) : column.after items effect = items := by
  have writes : column.write items effect = items := by
    rw [write, column.untouched effect untouched]
  cases effect <;> first | exact writes | cases stays

lemma replay_idle {effects : List Effect}
    (idle : ∀ effect ∈ effects, column.after items effect = items) :
    column.replay items effects = items := by
  refine List.foldlRecOn (motive := (· = items)) effects column.after rfl fun others same effect mem => ?_
  rw [same]
  exact idle effect mem

lemma replay_removals {n : Nat} (length : items.length = n) :
    column.replay items ((List.range n).reverse.map .removeSlot) = [] := by
  induction n generalizing items with
  | zero => exact List.length_eq_zero_iff.mp length
  | succ n ih =>
    rw [List.range_succ, List.reverse_concat, List.map_cons]
    have shorter : (items.eraseIdx n).length = n := by
      rw [List.length_eraseIdx_of_lt (by omega)]
      omega
    exact ih shorter

/-- Rendering terms adds slots for them, and overwrites those that stand there already if the column
shows terms. -/
lemma replay_renders (terms : List Term) (before rest : List α) (length : rest.length ≤ terms.length)
    (shows : rest = [] ∨ column.ShowsTerms) :
    column.replay (before ++ rest) (terms.mapIdx fun i t => .renderTerm (before.length + i) t) =
      before ++ terms.map column.fresh := by
  induction terms generalizing before rest with
  | nil =>
    have empty : rest = [] := List.length_eq_zero_iff.mp (Nat.le_zero.mp length)
    rw [empty]
    rfl
  | cons t terms ih =>
    have later : (fun i => Effect.renderTerm (before.length + (i + 1))) =
        fun i => Effect.renderTerm ((before ++ [column.fresh t]).length + i) := by
      funext i
      congr 1
      simp only [List.length_append, List.length_singleton]
      omega
    -- With or without a slot at this index, the term ends up right behind those before it.
    have first : column.after (before ++ rest) (.renderTerm before.length t) =
        (before ++ [column.fresh t]) ++ rest.tail := by
      cases rest with
      | nil => simp [after]
      | cons old rest =>
        have writes := shows.resolve_left (List.cons_ne_nil old rest) before.length t
        simp [after, write, writes]
    have shorter : rest.tail.length ≤ terms.length := by
      rw [List.length_tail]
      exact Nat.sub_le_of_le_add length
    have step : column.replay (before ++ rest) (.renderTerm (before.length + 0) t ::
          terms.mapIdx fun i => .renderTerm (before.length + (i + 1)))
        = column.replay (column.after (before ++ rest) (.renderTerm before.length t))
            (terms.mapIdx fun i => .renderTerm (before.length + (i + 1))) := rfl
    rw [List.mapIdx_cons, step, first, later, ih _ rest.tail shorter, List.append_assoc]
    · rfl
    · rcases shows with rfl | writes
      · exact .inl rfl
      · exact .inr writes

lemma replay_settled (e : Editor) : column.replay items e.settledEffects = items := by
  apply replay_idle
  intro effect mem
  simp only [Editor.settledEffects, Editor.previewEffects, Editor.placeholderEffects,
    List.cons_append, List.nil_append, List.mem_cons, List.not_mem_nil, or_false] at mem
  rcases mem with rfl | rfl | rfl | rfl <;> exact after_untouched rfl rfl

/-- Rendering terms makes slots look as new, where there were none or the column shows terms. -/
lemma replay_rendered {e : Editor} (terms : List Term) (length : items.length ≤ terms.length)
    (shows : items = [] ∨ column.ShowsTerms) :
    column.replay items ((e.restore terms).renderEffects ++ (e.restore terms).settledEffects) =
      terms.map column.fresh := by
  have rendered : column.replay items (e.restore terms).renderEffects = terms.map column.fresh := by
    have h := column.replay_renders terms [] items length shows
    simp only [List.length_nil, Nat.zero_add, List.nil_append] at h
    exact h
  rw [replay_append, rendered, replay_settled]

/-- Rendering terms again leaves a column as it is that shows no terms. -/
lemma replay_rerendered {e : Editor} (length : items.length = e.terms.length)
    (hides : ∀ index t, column.written? (.renderTerm index t) = none) :
    column.replay items e.refresh.effects = items := by
  have rendered : column.replay items e.refresh.editor.renderEffects = items := by
    apply replay_idle
    intro effect mem
    obtain ⟨index, lt, rfl⟩ := List.mem_mapIdx.mp mem
    have lt : index < items.length := length ▸ lt
    simp only [after, if_pos lt, write, hides]
  have effects : e.refresh.effects =
      e.refresh.editor.renderEffects ++ e.refresh.editor.settledEffects := rfl
  rw [effects, replay_append, rendered, replay_settled]

lemma replay_reload {e : Editor} (terms : List Term) (length : items.length = e.terms.length) :
    column.replay items (e.removalEffects ++ (e.restore terms).renderEffects ++
      (e.restore terms).settledEffects) = terms.map column.fresh := by
  have removed : column.replay items e.removalEffects = [] := replay_removals length
  rw [List.append_assoc, replay_append, removed]
  exact replay_rendered terms (Nat.zero_le _) (.inl rfl)

end Column

/-- What the slots of a display look like, handles and terms aside. -/
@[ext]
structure Guise where
  texts : List Text
  marks : List Bool
  messages : List (Option Text)
  input : Text
  inputMessage : Option Text

namespace Guise

/-- A guise after an effect. -/
def after (g : Guise) (effect : Effect) : Guise where
  texts := Column.texts.after g.texts effect
  marks := Column.marks.after g.marks effect
  messages := Column.messages.after g.messages effect
  input :=
    match effect with
    | .writeValue .input value => value
    | _ => g.input
  inputMessage :=
    match effect with
    | .setValidity .input message => message
    | _ => g.inputMessage

/-- A guise after effects, one after the other. -/
def replay (g : Guise) (effects : List Effect) : Guise := effects.foldl after g

/-- The guise of slots that were just rendered. -/
def fresh (terms : List Term) (inputMessage : Option Text) : Guise where
  texts := terms.map (·.label)
  marks := terms.map fun _ => false
  messages := terms.map fun _ => none
  input := []
  inputMessage

variable {g : Guise} {effects : List Effect}

lemma replay_append (g : Guise) (first rest : List Effect) :
    g.replay (first ++ rest) = (g.replay first).replay rest :=
  List.foldl_append

lemma replay_columns (g : Guise) (effects : List Effect) :
    (g.replay effects).texts = Column.texts.replay g.texts effects ∧
      (g.replay effects).marks = Column.marks.replay g.marks effects ∧
        (g.replay effects).messages = Column.messages.replay g.messages effects := by
  induction effects generalizing g with
  | nil => exact ⟨rfl, rfl, rfl⟩
  | cons effect rest ih => exact ih (g.after effect)

lemma after_deferred {effect : Effect} (deferred : effect.isDeferred) : g.after effect = g := by
  cases effect <;> first | rfl | cases deferred

/-- Whenever terms are restored, the trailing input is emptied at last. -/
lemma input_settled (g : Guise) (effects : List Effect) (e : Editor) :
    (g.replay (effects ++ e.settledEffects)).input = [] := by
  rw [replay_append]
  rfl

lemma replay_shows {e : Editor} (shows : ∀ effect ∈ effects, e.Shows effect) : g.replay effects = g := by
  induction effects with
  | nil => rfl
  | cons effect rest ih =>
    have first : g.after effect = g := by
      cases shows effect List.mem_cons_self <;> rfl
    have step : g.replay (effect :: rest) = (g.after effect).replay rest := rfl
    rw [step, first]
    exact ih fun effect mem => shows effect (List.mem_cons_of_mem _ mem)

lemma replay_andThen (g : Guise) (c : Change) (step : Editor → Change) :
    g.replay (c.andThen step).effects = (g.replay c.effects).replay (step c.editor).effects :=
  replay_append ..

lemma replay_andShow {c : Change} {effects : Editor → List Effect}
    (shows : ∀ effect ∈ effects c.editor, c.editor.Shows effect) :
    g.replay (c.andShow effects).effects = g.replay c.effects :=
  (replay_append ..).trans (replay_shows shows)

lemma replay_marking (g : Guise) (indices : List Nat) (selected : Bool) :
    ∃ marks, g.replay (indices.map fun index => .setSelected index selected) = { g with marks } := by
  induction indices generalizing g with
  | nil => exact ⟨g.marks, rfl⟩
  | cons index rest ih => exact ih (g.after (.setSelected index selected))

/-- Effects that set no message of the trailing input leave it as it is. -/
lemma inputMessage_replay (unmarked : ∀ message, .setValidity .input message ∉ effects) :
    (g.replay effects).inputMessage = g.inputMessage := by
  induction effects generalizing g with
  | nil => rfl
  | cons effect rest ih =>
    have first : (g.after effect).inputMessage = g.inputMessage := by
      cases effect with
      | setValidity slot message =>
        cases slot with
        | input => exact (unmarked message List.mem_cons_self).elim
        | term => rfl
      | _ => rfl
    exact (ih fun message mem => unmarked message (List.mem_cons_of_mem _ mem)).trans first

lemma unmarked_restored (e : Editor) (message : Option Text) :
    .setValidity .input message ∉ e.renderEffects ++ e.settledEffects := by
  intro mem
  rcases List.mem_append.mp mem with mem | mem
  · obtain ⟨_, _, eq⟩ := List.mem_mapIdx.mp mem
    cases eq
  · simp only [Editor.settledEffects, Editor.previewEffects, Editor.placeholderEffects,
      List.cons_append, List.nil_append, List.mem_cons, List.not_mem_nil, or_false, reduceCtorEq] at mem

/-- Rendering terms where nothing is shown yet makes the slots look as new. -/
lemma replay_rendered {e : Editor} (terms : List Term) (input : Text) (inputMessage : Option Text) :
    replay ⟨[], [], [], input, inputMessage⟩
      ((e.restore terms).renderEffects ++ (e.restore terms).settledEffects) =
        .fresh terms inputMessage := by
  obtain ⟨texts, marks, messages⟩ := replay_columns ⟨[], [], [], input, inputMessage⟩
    ((e.restore terms).renderEffects ++ (e.restore terms).settledEffects)
  ext1
  · exact texts.trans (Column.replay_rendered terms (Nat.zero_le _) (.inl rfl))
  · exact marks.trans (Column.replay_rendered terms (Nat.zero_le _) (.inl rfl))
  · exact messages.trans (Column.replay_rendered terms (Nat.zero_le _) (.inl rfl))
  · exact input_settled _ _ _
  · exact inputMessage_replay (unmarked_restored _)

end Guise

namespace Slot

variable {α : Type} {slot : Slot} {item : α} {items : List α}

/-- A list over the terms with an item of its own at a term slot. -/
def put (slot : Slot) (item : α) (items : List α) : List α :=
  match slot with
  | .input => items
  | .term index => items.set index item

@[simp] lemma put_input (item : α) (items : List α) : input.put item items = items := rfl

@[simp] lemma put_term (index : Nat) (item : α) (items : List α) :
    (term index).put item items = items.set index item := rfl

@[simp] lemma length_put (slot : Slot) (item : α) (items : List α) :
    (slot.put item items).length = items.length := by
  cases slot <;> simp

/-- Putting an item at a slot is choosing it at the index of the slot. -/
lemma put_range (n : Nat) (slot : Slot) (item : α) (f : Nat → α) :
    slot.put item ((List.range n).map f) =
      (List.range n).map fun index => if slot = .term index then item else f index := by
  cases slot with
  | input => rfl
  | term k =>
    apply List.ext_getElem
    · simp only [length_put, List.length_map]
    · intro i _ _
      simp only [put_term, List.getElem_set, List.getElem_map, List.getElem_range, term.injEq]

/-- The item goes along with its slot, and away with it. -/
lemma eraseIdx_put (removed : Nat) (slot : Slot) (item : α) (items : List α) :
    (slot.put item items).eraseIdx removed =
      ((slot.after (.removeSlot removed)).getD .input).put item (items.eraseIdx removed) := by
  cases slot with
  | input => rfl
  | term index =>
    dsimp only [Slot.after]
    split
    · rename_i here
      subst here
      exact List.eraseIdx_set_eq
    · rename_i elsewhere
      dsimp only [Option.getD_some, put, Editor.shiftIndex]
      split
      · rename_i before
        exact List.eraseIdx_set_lt before
      · rename_i behind
        exact List.eraseIdx_set_gt (by omega)

lemma getElem?_put_self {index : Nat} (lt : index < items.length) :
    ((term index).put item items)[index]? = some item :=
  List.getElem?_set_self lt

lemma getElem?_put_other {index : Nat} (other : slot ≠ .term index) :
    (slot.put item items)[index]? = items[index]? := by
  cases slot with
  | input => rfl
  | term k => exact List.getElem?_set_ne fun eq => other (congrArg term eq)

lemma put_eq_self (stands : ∀ index, slot = .term index → items[index]? = some item) :
    slot.put item items = items := by
  cases slot with
  | input => rfl
  | term index =>
    obtain ⟨lt, rfl⟩ := List.getElem?_eq_some_iff.mp (stands index rfl)
    exact List.set_getElem_self lt

lemma put_inj_iff {index : Nat} {item' : α} (lt : index < items.length) :
    (term index).put item items = (term index).put item' items ↔ item = item' := by
  refine ⟨fun same => ?_, fun same => same ▸ rfl⟩
  have at_slot : some item' = some item := by
    rw [← getElem?_put_self lt, ← same, getElem?_put_self lt]
  exact (Option.some.inj at_slot).symm

/-- Items at two slots make the same list just if both stand there already. -/
lemma put_eq_put_iff {slot' : Slot} {item' : α} (ne : slot ≠ slot')
    (within : ∀ index, slot = .term index → index < items.length)
    (within' : ∀ index, slot' = .term index → index < items.length) :
    slot.put item items = slot'.put item' items ↔
      (∀ index, slot = .term index → items[index]? = some item) ∧
        ∀ index, slot' = .term index → items[index]? = some item' := by
  constructor
  · intro same
    constructor
    · rintro index rfl
      rw [← getElem?_put_self (within index rfl), same, getElem?_put_other ne.symm]
    · rintro index rfl
      rw [← getElem?_put_self (within' index rfl), ← same, getElem?_put_other ne]
  · rintro ⟨stands, stands'⟩
    rw [put_eq_self stands, put_eq_self stands']

lemma put_append (rest : List α) (within : ∀ index, slot = .term index → index < items.length) :
    slot.put item (items ++ rest) = slot.put item items ++ rest := by
  cases slot with
  | input => rfl
  | term index => exact List.set_append_left _ _ (within index rfl)

end Slot

namespace Editor

/-- What is left of an editor without the term at an index: a slot that keeps the focus keeps its draft
and its message. -/
structure Removed (index : Nat) (e e' : Editor) : Prop where
  terms : e'.terms.terms = e.terms.terms.eraseIdx index
  input : e'.input = e.input
  selected : e'.selected = (e.selected.filter (· ≠ index)).map (shiftIndex index)
  focus : e'.focus = (e.focus.after (.removeSlot index)).getD .input
  kept : e'.focus = .input ∨ e'.draft = e.draft ∧ e'.validity = e.validity

lemma removed_remove {index : Nat} {e : Editor} {t : Term} (held : e.terms.get? index = some t) :
    Removed index e (e.remove index).editor := by
  rw [remove_eq held]
  have focus := focus_refocus index (e.without index)
  obtain ⟨_, _, _, eq⟩ := refocus_eq index (e.without index)
  refine ⟨?_, refocus_input index (e.without index), ?_, focus, ?_⟩
  · rw [eq]
    rfl
  · rw [eq]
    rfl
  · have kept : ((e.without index).refocus index).focus = .input ∨
        ((e.without index).refocus index).draft = e.draft ∧
          ((e.without index).refocus index).validity = e.validity := by
      unfold refocus
      split
      · rename_i input
        exact .inl input
      · split
        · exact .inl rfl
        · exact .inr ⟨rfl, rfl⟩
    exact kept

lemma Removed.length {index : Nat} {e e' : Editor} (h : Removed index e e')
    (lt : index < e.terms.length) : e'.terms.length = e.terms.length - 1 :=
  (congrArg List.length h.terms).trans (List.length_eraseIdx_of_lt lt)

/-- What every step makes of a guise, a trace makes of it. -/
lemma Trace.guise {scope : Scope} {e : Editor} {c : Change} {R : Guise → Editor → Prop} {g : Guise}
    (trace : Trace scope e c)
    (step : ∀ g e placed c, e.WellFormed → Step scope e placed c → R g e →
      R (g.replay c.effects) c.editor) (he : e.WellFormed) (hg : R g e) :
    R (g.replay c.effects) c.editor := by
  induction trace with
  | nil => exact hg
  | @snoc c d _ before last ih =>
    have hc : c.editor.WellFormed := before.invariant (fun _ _ _ step => step.wellFormed) he
    have next := step _ _ _ _ hc last ih
    rw [← Guise.replay_append] at next
    exact next

end Editor
end FilterEditor
