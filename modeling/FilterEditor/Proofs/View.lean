import FilterEditor.Proofs.WellFormed

/-!
# Views

What a display shows of an editor, handles aside: the terms, the search string that was handed over,
the preview and the placeholder. Replaying the effects of a message on the view of an editor gives the
view of the changed editor, so a display that carries out what it is told never falls behind.

Every step keeps up with the terms, the search string and the preview. The placeholder is shown again
at the end of a message, so it is followed along settled changes only.
-/

namespace FilterEditor

/-- What a display shows of an editor. -/
structure View where
  terms : List Term
  synced : Text
  preview : Option Text
  placeholder : Text

namespace View

/-- A view after an effect. -/
def after (v : View) : Effect → View
  | .renderTerm index t =>
    { v with terms := if index < v.terms.length then v.terms.set index t else v.terms ++ [t] }
  | .updateTerm index t => { v with terms := v.terms.set index t }
  | .removeSlot index => { v with terms := v.terms.eraseIdx index }
  | .syncValue value => { v with synced := value }
  | .showPreview label => { v with preview := label }
  | .setPlaceholder text => { v with placeholder := text }
  | _ => v

/-- A view after effects, one after the other. -/
def replay (v : View) (effects : List Effect) : View := effects.foldl after v

lemma replay_append (v : View) (first rest : List Effect) :
    v.replay (first ++ rest) = (v.replay first).replay rest :=
  List.foldl_append

lemma replay_idle {effects : List Effect} (v : View) (idle : ∀ effect ∈ effects, v.after effect = v) :
    v.replay effects = v := by
  refine List.foldlRecOn (motive := (· = v)) effects after rfl fun w same effect mem => ?_
  rw [same]
  exact idle effect mem

lemma replay_removals {n : Nat} (v : View) (length : v.terms.length = n) :
    v.replay ((List.range n).reverse.map .removeSlot) = { v with terms := [] } := by
  induction n generalizing v with
  | zero =>
    have empty : v.terms = [] := List.length_eq_zero_iff.mp length
    rw [← empty]
    rfl
  | succ n ih =>
    rw [List.range_succ, List.reverse_concat, List.map_cons]
    have shorter : (v.terms.eraseIdx n).length = n := by
      rw [List.length_eraseIdx_of_lt (by omega)]
      omega
    exact ih { v with terms := v.terms.eraseIdx n } shorter

/-- Rendering terms behind those that are shown already overwrites what follows these. -/
lemma replay_renders (terms before rest : List Term) (v : View) (shown : v.terms = before ++ rest)
    (length : rest.length ≤ terms.length) :
    v.replay (terms.mapIdx fun i t => .renderTerm (before.length + i) t) =
      { v with terms := before ++ terms } := by
  induction terms generalizing before rest v with
  | nil =>
    have empty : rest = [] := List.length_eq_zero_iff.mp (Nat.le_zero.mp length)
    subst empty
    rw [← shown]
    rfl
  | cons t terms ih =>
    rw [List.mapIdx_cons]
    have later : (fun i => Effect.renderTerm (before.length + (i + 1))) =
        fun i => Effect.renderTerm ((before ++ [t]).length + i) := by
      funext i
      congr 1
      simp only [List.length_append, List.length_singleton]
      omega
    rw [later]
    -- With or without a slot at this index, the term ends up right behind those before it.
    have first : v.after (.renderTerm before.length t) =
        { v with terms := (before ++ [t]) ++ rest.tail } := by
      cases rest with
      | nil => simp [after, shown]
      | cons old rest => simp [after, shown]
    have length : rest.tail.length ≤ terms.length := by
      rw [List.length_tail]
      exact Nat.sub_le_of_le_add length
    have last := ih (before ++ [t]) rest.tail (v.after (.renderTerm before.length t))
      (congrArg View.terms first) length
    have step : ∀ effects, v.replay (.renderTerm (before.length + 0) t :: effects) =
        (v.after (.renderTerm before.length t)).replay effects := fun _ => rfl
    rw [step, last, first, List.append_assoc]
    rfl

end View

namespace Editor

/-- What a display should show of an editor. -/
def view (e : Editor) : View :=
  ⟨e.terms.terms, e.serialized, e.preview.map (·.label), e.placeholder⟩

/-- A view that shows an editor, up to the placeholder. -/
structure ShownIn (v : View) (e : Editor) : Prop where
  terms : v.terms = e.terms.terms
  synced : v.synced = e.serialized
  preview : v.preview = e.preview.map (·.label)

variable {scope : Scope} {e : Editor} {placed : Bool} {c : Change} {v : View}

/-- With the right placeholder, nothing else is left to show. -/
lemma ShownIn.eq_view (h : ShownIn v e) (placeholder : v.placeholder = e.placeholder) :
    v = e.view := by
  obtain ⟨terms, synced, preview, shown⟩ := v
  obtain ⟨rfl, rfl, rfl⟩ := h
  cases placeholder
  rfl

lemma shownIn_view (e : Editor) : ShownIn e.view e := ⟨rfl, rfl, rfl⟩

/-! ## Effects that only show -/

lemma ShownIn.shows {effects : List Effect} (h : ShownIn v e)
    (shows : ∀ effect ∈ effects, e.Shows effect) : ShownIn (v.replay effects) e := by
  induction effects generalizing v with
  | nil => exact h
  | cons effect rest ih =>
    have first : ShownIn (v.after effect) e := by
      cases shows effect List.mem_cons_self <;> exact ⟨h.terms, h.synced, h.preview⟩
    exact ih first fun effect he => shows effect (List.mem_cons_of_mem _ he)

/-- Showing something as it is keeps the placeholder. -/
lemma placeholder_shows {effects : List Effect} (h : v.placeholder = e.placeholder)
    (shows : ∀ effect ∈ effects, e.Shows effect) :
    (v.replay effects).placeholder = e.placeholder := by
  induction effects generalizing v with
  | nil => exact h
  | cons effect rest ih =>
    have first : (v.after effect).placeholder = e.placeholder := by
      cases shows effect List.mem_cons_self with
      | placeholder => rfl
      | _ => exact h
    exact ih first fun effect he => shows effect (List.mem_cons_of_mem _ he)

lemma replay_selected (indices : List Nat) (selected : Bool) (v : View) :
    v.replay (indices.map fun index => .setSelected index selected) = v := by
  apply v.replay_idle
  intro effect h
  obtain ⟨index, _, rfl⟩ := List.mem_map.mp h
  rfl

/-! ## Restoring -/

/-- What stands beside the slots is shown whenever terms are restored. -/
lemma replay_settled (terms : v.terms = e.terms.terms) :
    v.replay e.settledEffects = e.view := by
  have shown : v.replay e.settledEffects =
      ⟨v.terms, e.serialized, e.preview.map (·.label), e.placeholder⟩ := rfl
  rw [shown, terms]
  rfl

lemma replay_rendered (length : v.terms.length ≤ e.terms.length) :
    v.replay (e.renderEffects ++ e.settledEffects) = e.view := by
  have rendered : v.replay e.renderEffects = { v with terms := e.terms.terms } := by
    have h := v.replay_renders e.terms.terms [] v.terms rfl length
    simp only [List.length_nil, Nat.zero_add, List.nil_append] at h
    exact h
  rw [View.replay_append, rendered]
  exact replay_settled rfl

/-- Removing all slots and rendering other terms shows these. -/
lemma replay_reload (terms : List Term) (shown : v.terms = e.terms.terms) :
    v.replay (e.removalEffects ++ (e.restore terms).renderEffects ++
      (e.restore terms).settledEffects) = (e.restore terms).view := by
  have removed : v.replay e.removalEffects = { v with terms := [] } :=
    v.replay_removals (congrArg List.length shown)
  rw [List.append_assoc, View.replay_append, removed]
  exact replay_rendered (Nat.zero_le _)

/-! ## Steps -/

lemma shown_add (t : Term) (h : ShownIn v e) :
    ShownIn (v.replay (e.add t).effects) (e.add t).editor := by
  have terms : (v.replay (e.add t).effects).terms =
      if e.terms.length < v.terms.length then v.terms.set e.terms.length t
      else v.terms ++ [t] := rfl
  have behind : ¬ e.terms.length < v.terms.length := by
    rw [h.terms]
    exact Nat.lt_irrefl _
  refine ⟨?_, rfl, rfl⟩
  rw [terms, if_neg behind, h.terms]
  rfl

/-- Every step tells the display of the terms, the search string and the preview that it changes. -/
lemma Step.shown (h : Step scope e placed c) (editing : scope ≠ .loading) (hv : ShownIn v e) :
    ShownIn (v.replay c.effects) c.editor := by
  cases h with
  | add => exact shown_add _ hv
  | confirm => exact shown_add _ hv
  | @remove index t held =>
    rw [remove_eq held]
    obtain ⟨_, _, _, eq⟩ := refocus_eq index (e.without index)
    rw [eq]
    exact ⟨congrArg (List.eraseIdx · index) hv.terms, rfl, rfl⟩
  | selectAll =>
    have idle : v.replay e.selectAll.effects = v := replay_selected _ true v
    rw [idle]
    exact ⟨hv.terms, hv.synced, hv.preview⟩
  | deselect =>
    have idle : v.replay e.deselect.effects = v := replay_selected _ false v
    rw [idle]
    exact ⟨hv.terms, hv.synced, hv.preview⟩
  | @write slot _ _ _ edited =>
    obtain ⟨_, _, _, _, rfl⟩ := edit_eq edited
    cases slot <;> exact ⟨hv.terms, hv.synced, hv.preview⟩
  | @move slot _ _ _ _ edited =>
    obtain ⟨_, _, _, _, rfl⟩ := edit_eq edited
    cases slot <;> exact ⟨hv.terms, hv.synced, hv.preview⟩
  | cycle => exact ⟨hv.terms, hv.synced, rfl⟩
  | @replace index _ t => exact ⟨congrArg (List.set · index t) hv.terms, rfl, hv.preview⟩
  | enterInput => exact ⟨hv.terms, hv.synced, rfl⟩
  | @reload terms =>
    rw [replay_reload terms hv.terms]
    exact shownIn_view _
  | adopt loading => exact (editing loading).elim
  | refresh =>
    -- Every slot is overwritten, and there are no more slots than terms.
    have length : v.terms.length ≤ e.refresh.editor.terms.length :=
      Nat.le_of_eq (congrArg List.length hv.terms)
    have shown : v.replay e.refresh.effects = e.refresh.editor.view := replay_rendered length
    rw [shown]
    exact shownIn_view _
  | «show» shows => exact hv.shows shows
  | _ => exact ⟨hv.terms, hv.synced, hv.preview⟩

/-- What is shown last is the placeholder. -/
lemma placeholder_settled (effects : List Effect) (e : Editor) :
    (v.replay (effects ++ e.settledEffects)).placeholder = e.placeholder := by
  rw [View.replay_append]
  rfl

/-- A previewed term is committed behind others, so it does not touch the placeholder. -/
lemma placeholder_confirm {t : Term} (he : e.WellFormed) (previewed : e.preview = some t) :
    (e.add t).editor.placeholder = e.placeholder := by
  have some : e.preview.isSome := by rw [previewed]; rfl
  have nonempty : e.terms.terms ≠ [] := by
    intro empty
    have initial := he.typed.initial empty
    have expected := he.previewed.isSome_iff.mp some
    rw [initial] at expected
    cases grammar : e.grammar <;> simp [grammar, Grammar.initialKind] at expected
  simp [placeholder, hasTerms, Sequence.isEmpty, nonempty, add, reposition, Sequence.push,
    Sequence.withTerms]

/-- A settling step of a well-formed editor leaves the right placeholder. -/
lemma Step.placeholder (h : Step scope e true c) (he : e.WellFormed)
    (hv : v.placeholder = e.placeholder) :
    (v.replay c.effects).placeholder = c.editor.placeholder := by
  cases h with
  | confirm previewed =>
    rw [placeholder_confirm he previewed]
    exact hv
  | selectAll =>
    have idle : v.replay e.selectAll.effects = v := replay_selected _ true v
    rw [idle]
    exact hv
  | deselect =>
    have idle : v.replay e.deselect.effects = v := replay_selected _ false v
    rw [idle]
    exact hv
  | @write slot _ _ _ edited =>
    obtain ⟨_, _, _, _, rfl⟩ := edit_eq edited
    cases slot <;> exact hv
  | @move slot _ _ _ _ edited =>
    obtain ⟨_, _, _, _, rfl⟩ := edit_eq edited
    cases slot <;> exact hv
  | @replace index _ t =>
    -- The placeholder depends on the terms only through their number.
    have same : (e.terms.withTerms (e.terms.terms.set index t)).isEmpty = e.terms.isEmpty := by
      rw [Bool.eq_iff_iff]
      simp [Sequence.isEmpty, Sequence.withTerms]
    have eq : ({ e with terms := e.terms.withTerms (e.terms.terms.set index t) } : Editor).placeholder
        = e.placeholder := by
      unfold Editor.placeholder hasTerms
      rw [same]
    rw [eq]
    exact hv
  | reload => exact placeholder_settled _ _
  | adopt => exact placeholder_settled [] _
  | refresh => exact placeholder_settled _ _
  | «show» shows => exact placeholder_shows hv shows
  | _ => exact hv

/-! ## Messages -/

lemma Trace.shown (h : Trace scope e c) (editing : scope ≠ .loading) (hv : ShownIn v e) :
    ShownIn (v.replay c.effects) c.editor := by
  induction h with
  | nil => exact hv
  | @snoc c d _ _ step ih =>
    have shown := step.shown editing ih
    rw [← View.replay_append] at shown
    exact shown

/-- Replaying a settled change on the view of a well-formed editor gives the view of the changed
one. -/
lemma Settled.replay_view (h : Settled scope e c) (editing : scope ≠ .loading)
    (he : e.WellFormed) : e.view.replay c.effects = c.editor.view := by
  induction h with
  | nil => rfl
  | @snoc c d before step ih =>
    have hc : c.editor.WellFormed :=
      before.trace.invariant (fun _ _ _ step => step.wellFormed) he
    have eq : (c.andThen fun _ => d).effects = c.effects ++ d.effects := rfl
    rw [eq, View.replay_append, ih]
    exact (step.shown editing (shownIn_view _)).eq_view (step.placeholder hc rfl)
  | @settle c trace =>
    -- Along the trace the placeholder may be wrong at any time; only the last effect counts.
    have shown := trace.shown editing (shownIn_view e)
    have eq : (c.andShow placeholderEffects).effects = c.effects ++ c.editor.placeholderEffects :=
      rfl
    rw [eq, View.replay_append]
    exact ShownIn.eq_view (shown.shows (shows_placeholder c.editor)) rfl

/-- A message that loads nothing leaves a display in step that replays its effects. -/
lemma replay_respond {message : Message} (editing : message.scope ≠ .loading) (he : e.WellFormed) :
    e.view.replay (e.respond message).effects = (e.respond message).editor.view :=
  (settled_respond e message).replay_view editing he

end Editor
end FilterEditor
