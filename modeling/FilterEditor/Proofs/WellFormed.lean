import FilterEditor.Proofs.Reachable

/-!
# Well-formed editors

What holds of every reachable editor, whatever messages it has seen: the search string is that of the
terms, the selection and the focus point to terms that there are, lines are sound, terms have kinds
where the grammar needs them, and the preview is a token of the expected kind.

The parts are proved one by one, each for every step. They lean on each other in two places only: a
committed term has a kind because the expected kind is never missing, and a confirmed preview has one
because it is a token.
-/

namespace FilterEditor

/-- A sequence whose search string is that of its terms. -/
structure Sequence.Joined (s : Sequence) (separator : Text) : Prop where
  separator_eq : s.separator = separator
  serialized_eq : s.serialized = joinSearch s.terms separator

lemma Sequence.Joined.withTerms {s : Sequence} {separator : Text} (h : s.Joined separator)
    (terms : List Term) : (s.withTerms terms).Joined separator :=
  ⟨h.separator_eq, congrArg (joinSearch terms) h.separator_eq⟩

namespace Editor

/-- A focus that points to a slot, with a draft for a term slot and no leftovers elsewhere. -/
structure FocusSound (e : Editor) : Prop where
  term : ∀ index, e.focus = .term index → index < e.terms.length ∧ e.draft.isSome
  input : e.focus = .input → e.draft = none ∧ e.validity = none

/-- Lines that are sound. -/
structure LinesSound (e : Editor) : Prop where
  input : e.input.Sound
  draft : ∀ line, e.draft = some line → line.Sound

/-- Terms and an expected kind that suit the grammar. -/
structure Typed (e : Editor) : Prop where
  kinds : e.grammar = .filter → ∀ t ∈ e.terms.terms, t.kind.isSome
  expected : e.grammar = .filter →
    e.expected = some .column ∨ e.expected = some .operator ∨ e.expected = some .value ∨
      e.expected = some .logicalOperator
  untyped : e.grammar = .plain → e.expected = none
  initial : e.terms.terms = [] → e.expected = e.grammar.initialKind

/-- A preview that is a token of the expected kind, where that kind has tokens. -/
structure Previewed (e : Editor) : Prop where
  isSome_iff : e.preview.isSome ↔
    e.expected = some .operator ∨ e.expected = some .logicalOperator
  operator : e.expected = some .operator → ∀ t, e.preview = some t → t ∈ Term.relationalOperators
  logical : e.expected = some .logicalOperator →
    ∀ t, e.preview = some t → t ∈ Term.logicalOperators

/-- What holds of every reachable editor. -/
structure WellFormed (e : Editor) : Prop where
  joined : e.terms.Joined e.settings.separator
  selected : ∀ index ∈ e.selected, index < e.terms.length
  focus : e.FocusSound
  lines : e.LinesSound
  typed : e.Typed
  previewed : e.Previewed

variable {scope : Scope} {e : Editor} {placed : Bool} {c : Change}

/-! ## What steps change -/

lemma edit_eq {slot : Slot} {change : Line → Option Line} {e' : Editor}
    (h : e.edit? slot change = some e') :
    ∃ line line', e.line? slot = some line ∧ change line = some line' ∧
      e' = e.withLine slot line' := by
  obtain ⟨line', found, rfl⟩ := Option.map_eq_some_iff.mp h
  obtain ⟨line, hl, hc⟩ := Option.bind_eq_some_iff.mp found
  exact ⟨line, line', hl, hc, rfl⟩

/-- The editor without the term at an index, before its focus and its position are put right. -/
def without (index : Nat) (e : Editor) : Editor :=
  { e with
    terms := e.terms.withTerms (e.terms.terms.eraseIdx index)
    selected := (e.selected.filter (· ≠ index)).map (shiftIndex index) }

lemma remove_eq {index : Nat} {t : Term} (held : e.terms.get? index = some t) :
    e.remove index =
      ⟨((e.without index).refocus index).reposition,
        .removeSlot index :: .syncValue ((e.without index).refocus index).reposition.serialized ::
          ((e.without index).refocus index).reposition.previewEffects⟩ := by
  simp only [remove, Sequence.remove?, show e.terms.terms[index]? = some t from held]
  rfl

lemma refocus_eq (removed : Nat) (e : Editor) :
    ∃ focus draft validity, e.refocus removed = { e with focus, draft, validity } := by
  unfold refocus
  split
  · exact ⟨_, _, _, rfl⟩
  · split <;> exact ⟨_, _, _, rfl⟩

lemma lt_of_get? {s : Sequence} {index : Nat} {t : Term} (h : s.get? index = some t) :
    index < s.length :=
  (List.getElem?_eq_some_iff.mp h).1

/-- No step touches the settings or the grammar. -/
lemma Step.frame (h : Step scope e placed c) :
    c.editor.settings = e.settings ∧ c.editor.grammar = e.grammar := by
  cases h with
  | remove held =>
    rw [remove_eq held]
    obtain ⟨_, _, _, eq⟩ := refocus_eq _ (e.without _)
    rw [eq]
    exact ⟨rfl, rfl⟩
  | @write slot _ _ _ edited =>
    obtain ⟨_, _, _, _, rfl⟩ := edit_eq edited
    cases slot <;> exact ⟨rfl, rfl⟩
  | @move slot _ _ _ _ edited =>
    obtain ⟨_, _, _, _, rfl⟩ := edit_eq edited
    cases slot <;> exact ⟨rfl, rfl⟩
  | _ => exact ⟨rfl, rfl⟩

/-- Messages touch neither the settings nor the grammar. -/
lemma frame_run (e : Editor) (messages : List Message) :
    (e.run messages).settings = e.settings ∧ (e.run messages).grammar = e.grammar := by
  refine invariant_run (P := fun e' => e'.settings = e.settings ∧ e'.grammar = e.grammar) ?_
    ⟨rfl, rfl⟩ messages
  intro _ _ _ _ step he
  exact ⟨step.frame.1.trans he.1, step.frame.2.trans he.2⟩

/-! ## The search string -/

lemma Step.joined (h : Step scope e placed c) (he : e.terms.Joined e.settings.separator) :
    c.editor.terms.Joined c.editor.settings.separator := by
  cases h with
  | add => exact he.withTerms _
  | confirm => exact he.withTerms _
  | remove held =>
    rw [remove_eq held]
    obtain ⟨_, _, _, eq⟩ := refocus_eq _ (e.without _)
    rw [eq]
    exact he.withTerms _
  | @write slot _ _ _ edited =>
    obtain ⟨_, _, _, _, rfl⟩ := edit_eq edited
    cases slot <;> exact he
  | @move slot _ _ _ _ edited =>
    obtain ⟨_, _, _, _, rfl⟩ := edit_eq edited
    cases slot <;> exact he
  | replace => exact he.withTerms _
  | reload => exact ⟨rfl, rfl⟩
  | adopt => exact ⟨rfl, rfl⟩
  | refresh => exact ⟨rfl, rfl⟩
  | _ => exact he

/-! ## The selection -/

lemma mem_insertIndex {index i : Nat} {selected : List Nat} :
    i ∈ insertIndex index selected ↔ i = index ∨ i ∈ selected := by
  induction selected with
  | nil => simp [insertIndex]
  | cons first rest ih =>
    unfold insertIndex
    split
    · simp
    · simp only [List.mem_cons, ih]
      tauto

lemma shiftIndex_lt {removed index length : Nat} (lt : index < length) (ne : index ≠ removed)
    (removed_lt : removed < length) : shiftIndex removed index < length - 1 := by
  unfold shiftIndex
  split <;> omega

lemma Step.selected (h : Step scope e placed c) (he : ∀ index ∈ e.selected, index < e.terms.length) :
    ∀ index ∈ c.editor.selected, index < c.editor.terms.length := by
  have grown : ∀ t : Term, ∀ index ∈ e.selected, index < (e.terms.push t).length := by
    intro t index hi
    have lt : index < e.terms.terms.length := he index hi
    have length : (e.terms.push t).length = e.terms.terms.length + 1 := List.length_append
    omega
  cases h with
  | @add t => exact grown t
  | @confirm t => exact grown t
  | @remove index t held =>
    rw [remove_eq held]
    obtain ⟨_, _, _, eq⟩ := refocus_eq index (e.without index)
    rw [eq]
    intro i hi
    -- What is left of the selection are the old indices but the removed one, shifted past it.
    obtain ⟨j, hj, rfl⟩ := List.mem_map.mp hi
    obtain ⟨hj, ne⟩ := List.mem_filter.mp hj
    have removed_lt := lt_of_get? held
    have length : (e.terms.withTerms (e.terms.terms.eraseIdx index)).length = e.terms.length - 1 :=
      List.length_eraseIdx_of_lt removed_lt
    have lt := shiftIndex_lt (he j hj) (by simpa using ne) removed_lt
    rw [← length] at lt
    exact lt
  | selectAll => exact fun i hi => List.mem_range.mp hi
  | deselect => exact nofun
  | select lt new =>
    intro i hi
    rcases mem_insertIndex.mp hi with rfl | hi
    · exact lt
    · exact he i hi
  | unselect => exact fun i hi => he i (List.mem_filter.mp hi).1
  | @write slot _ _ _ edited =>
    obtain ⟨_, _, _, _, rfl⟩ := edit_eq edited
    cases slot <;> exact he
  | @move slot _ _ _ _ edited =>
    obtain ⟨_, _, _, _, rfl⟩ := edit_eq edited
    cases slot <;> exact he
  | @replace index old t =>
    intro i hi
    have length : (e.terms.withTerms (e.terms.terms.set index t)).length = e.terms.length :=
      List.length_set
    rw [length]
    exact he i hi
  | reload => exact nofun
  | adopt => exact nofun
  | refresh => exact nofun
  | _ => exact he

/-! ## The focus -/

/-- A term slot in focus holds a term and a draft. -/
lemma FocusSound.opened {index : Nat} (he : e.FocusSound) (focus : e.focus = .term index) :
    ∃ current draft, e.terms.get? index = some current ∧ e.draft = some draft := by
  obtain ⟨lt, edited⟩ := he.term index focus
  obtain ⟨draft, edited⟩ := Option.isSome_iff_exists.mp edited
  exact ⟨_, draft, List.getElem?_eq_getElem lt, edited⟩

lemma withLine_sound {slot : Slot} {line line' : Line} (found : e.line? slot = some line)
    (he : e.FocusSound) : (e.withLine slot line').FocusSound := by
  cases slot with
  | input => exact ⟨he.term, he.input⟩
  | term index =>
    have draft : e.draft = some line := found
    refine ⟨fun i hi => ⟨(he.term i hi).1, rfl⟩, fun input => ?_⟩
    rw [(he.input input).1] at draft
    cases draft

lemma refocus_sound {index : Nat} {t : Term} (held : e.terms.get? index = some t)
    (he : e.FocusSound) : ((e.without index).refocus index).reposition.FocusSound := by
  have removed_lt := lt_of_get? held
  have length : (e.without index).terms.length = e.terms.length - 1 :=
    List.length_eraseIdx_of_lt removed_lt
  have same : (e.without index).focus = e.focus := rfl
  cases focus : e.focus with
  | input =>
    have eq : (e.without index).refocus index = e.without index := by
      simp only [refocus, same, focus]
    rw [eq]
    exact ⟨fun i hi => (nomatch focus.symm.trans hi), fun _ => he.input focus⟩
  | term focused =>
    obtain ⟨lt, draft⟩ := he.term focused focus
    -- The focus is lost with the removed term, else it moves along with its own.
    by_cases here : focused = index
    · have eq : (e.without index).refocus index =
          { e.without index with focus := .input, draft := none, validity := none } := by
        simp only [refocus, same, focus, here, if_true]
      rw [eq]
      exact ⟨nofun, fun _ => ⟨rfl, rfl⟩⟩
    · have eq : (e.without index).refocus index =
          { e.without index with focus := .term (shiftIndex index focused) } := by
        simp only [refocus, same, focus, here, if_false]
      rw [eq]
      refine ⟨fun i hi => ?_, nofun⟩
      cases hi
      have lt := shiftIndex_lt lt here removed_lt
      rw [← length] at lt
      exact ⟨lt, draft⟩

/-- A term that is added comes behind the slot in focus. -/
lemma add_sound (t : Term) (he : e.FocusSound) : (e.add t).editor.FocusSound := by
  refine ⟨fun index focus => ?_, he.input⟩
  obtain ⟨lt, draft⟩ := he.term index focus
  have length : (e.add t).editor.terms.length = e.terms.length + 1 := List.length_append
  exact ⟨by omega, draft⟩

/-- Every step keeps the focus on a slot that there is. -/
lemma Step.focusSound (h : Step scope e placed c) (he : e.FocusSound) : c.editor.FocusSound := by
  cases h with
  | @add t => exact add_sound t he
  | @confirm t => exact add_sound t he
  | @remove index t held =>
    rw [remove_eq held]
    exact refocus_sound held he
  | @write slot _ _ _ edited =>
    obtain ⟨_, _, found, _, rfl⟩ := edit_eq edited
    exact withLine_sound found he
  | @move slot _ _ _ _ edited =>
    obtain ⟨_, _, found, _, rfl⟩ := edit_eq edited
    exact withLine_sound found he
  | validate => exact ⟨he.term, fun input => ⟨(he.input input).1, rfl⟩⟩
  | invalidate focus => exact ⟨he.term, fun input => nomatch focus.symm.trans input⟩
  | accept => exact ⟨he.term, fun input => ⟨(he.input input).1, rfl⟩⟩
  | revert _ focus =>
    exact ⟨fun i hi => ⟨(he.term i hi).1, rfl⟩, fun input => nomatch focus.symm.trans input⟩
  | @replace index old t =>
    have length : (e.terms.withTerms (e.terms.terms.set index t)).length = e.terms.length :=
      List.length_set
    refine ⟨fun i hi => ?_, he.input⟩
    rw [length]
    exact he.term i hi
  | enterTerm _ held =>
    refine ⟨fun i hi => ?_, nofun⟩
    cases hi
    exact ⟨lt_of_get? held, rfl⟩
  | enterInput => exact ⟨nofun, fun _ => ⟨rfl, rfl⟩⟩
  | suggestTerm _ focus =>
    exact ⟨fun i hi => ⟨(he.term i hi).1, rfl⟩, fun input => nomatch focus.symm.trans input⟩
  | reload => exact ⟨nofun, fun _ => ⟨rfl, rfl⟩⟩
  | adopt => exact ⟨nofun, fun _ => ⟨rfl, rfl⟩⟩
  | refresh => exact ⟨nofun, fun _ => ⟨rfl, rfl⟩⟩
  | _ => exact ⟨he.term, he.input⟩

/-! ## Lines -/

lemma refocus_input (removed : Nat) (e : Editor) :
    ((e.refocus removed).reposition).input = e.input := by
  obtain ⟨_, _, _, eq⟩ := refocus_eq removed e
  rw [eq]
  rfl

/-- A draft that is left after moving the focus along was there before. -/
lemma draft_of_refocus {removed : Nat} {line : Line}
    (h : ((e.refocus removed).reposition).draft = some line) : e.draft = some line := by
  unfold refocus at h
  split at h
  · exact h
  · split at h
    · cases h
    · exact h

lemma edit_sound {slot : Slot} {change : Line → Option Line} {e' : Editor}
    (keeps : Line.Keeps change) (edited : e.edit? slot change = some e') (he : e.LinesSound) :
    e'.LinesSound := by
  obtain ⟨line, line', found, changed, rfl⟩ := edit_eq edited
  cases slot with
  | input =>
    cases found
    exact ⟨keeps _ _ he.input changed, he.draft⟩
  | term index =>
    refine ⟨he.input, fun l hl => ?_⟩
    cases hl
    exact keeps _ _ (he.draft line found) changed

lemma Step.linesSound (h : Step scope e placed c) (he : e.LinesSound) : c.editor.LinesSound := by
  have label : ∀ t : Term, ∀ line, some (Line.ofText t.label) = some line → line.Sound := by
    intro t line eq
    cases eq
    exact Line.sound_ofText t.label
  cases h with
  | clear => exact ⟨Line.sound_empty, he.draft⟩
  | @remove index t held =>
    rw [remove_eq held]
    exact ⟨refocus_input index (e.without index) ▸ he.input,
      fun line hl => he.draft line (draft_of_refocus (e := e.without index) hl)⟩
  | write keeps edited => exact edit_sound keeps edited he
  | move keeps _ edited => exact edit_sound keeps edited he
  | @revert index t => exact ⟨he.input, label t⟩
  | @enterTerm index t => exact ⟨he.input, label t⟩
  | enterInput => exact ⟨he.input, nofun⟩
  | suggestInput => exact ⟨Line.sound_ofText _, he.draft⟩
  | @suggestTerm index t => exact ⟨he.input, label t⟩
  | reload => exact ⟨Line.sound_empty, nofun⟩
  | adopt => exact ⟨Line.sound_empty, nofun⟩
  | refresh => exact ⟨Line.sound_empty, nofun⟩
  | _ => exact ⟨he.input, he.draft⟩

/-! ## Kinds and previews -/

/-- A term of some kind is followed by one of the four kinds that start or go on a condition. -/
lemma nextKind_of_kind {t : Term} (h : t.kind.isSome) :
    Grammar.filter.nextKind t = some .column ∨ Grammar.filter.nextKind t = some .operator ∨
      Grammar.filter.nextKind t = some .value ∨
      Grammar.filter.nextKind t = some .logicalOperator := by
  unfold Grammar.nextKind
  dsimp only
  split
  · rename_i none
    rw [none] at h
    cases h
  · exact .inr (.inl rfl)
  · exact .inr (.inr (.inl rfl))
  · exact .inr (.inr (.inr rfl))
  · exact .inl rfl
  · split
    · exact .inl rfl
    · exact .inr (.inr (.inr rfl))

/-- An editor whose terms have kinds is typed once its position is derived from them. -/
lemma typed_reposition (kinds : e.grammar = .filter → ∀ t ∈ e.terms.terms, t.kind.isSome) :
    e.reposition.Typed where
  kinds := kinds
  expected := by
    intro filter
    have filter : e.grammar = .filter := filter
    have eq : e.reposition.expected = e.expectedAfter e.terms.last? := rfl
    rw [eq]
    cases last : e.terms.last? with
    | none =>
      left
      simp only [expectedAfter, filter, Grammar.initialKind]
    | some t =>
      have mem : t ∈ e.terms.terms := List.mem_of_getLast? last
      simp only [expectedAfter, filter]
      exact nextKind_of_kind (kinds filter t mem)
  untyped := by
    intro plain
    have plain : e.grammar = .plain := plain
    have eq : e.reposition.expected = e.expectedAfter e.terms.last? := rfl
    rw [eq]
    cases e.terms.last? with
    | none => simp only [expectedAfter, plain, Grammar.initialKind]
    | some t => simp only [expectedAfter, plain, Grammar.nextKind]
  initial := by
    intro empty
    have last : e.terms.last? = none := by
      simp only [Sequence.last?, show e.terms.terms = [] from empty, List.getLast?_nil]
    have eq : e.reposition.expected = e.expectedAfter e.terms.last? := rfl
    rw [eq, last]
    rfl

lemma previewed_of_previewFor (untyped : e.grammar = .plain → e.expected = none)
    (h : e.preview = e.grammar.previewFor e.expected) : e.Previewed := by
  cases grammar : e.grammar with
  | plain =>
    have expected := untyped grammar
    rw [grammar] at h
    have preview : e.preview = none := h
    constructor <;> simp [expected, preview]
  | filter =>
    rw [grammar] at h
    constructor
    · rw [h]
      cases e.expected with
      | none => simp [Grammar.previewFor, Grammar.previewGroup]
      | some kind => cases kind <;> simp [Grammar.previewFor, Grammar.previewGroup,
          Term.relationalOperators, Term.logicalOperators]
    · intro expected t ht
      rw [h, expected] at ht
      exact List.mem_of_mem_head? ht
    · intro expected t ht
      rw [h, expected] at ht
      exact List.mem_of_mem_head? ht

lemma Previewed.token (h : e.Previewed) {t : Term} (ht : e.preview = some t) : t ∈ Term.tokens := by
  have some : e.preview.isSome := by rw [ht]; rfl
  rcases h.isSome_iff.mp some with expected | expected
  · exact Grammar.tokens_of_relational (h.operator expected t ht)
  · exact Grammar.tokens_of_joiner (List.mem_cons_of_mem _ (h.logical expected t ht))

lemma Previewed.kind (h : e.Previewed) {t : Term} (ht : e.preview = some t) : t.kind.isSome :=
  Grammar.kind_of_mem_tokens t (h.token ht)

/-- A preview is of the expected kind. -/
lemma Previewed.kind_eq (h : e.Previewed) {t : Term} (ht : e.preview = some t) :
    t.kind = e.expected := by
  have relational : ∀ t ∈ Term.relationalOperators, t.kind = some .operator := by decide
  have logical : ∀ t ∈ Term.logicalOperators, t.kind = some .logicalOperator := by decide
  have some : e.preview.isSome := by rw [ht]; rfl
  rcases h.isSome_iff.mp some with expected | expected
  · exact (relational t (h.operator expected t ht)).trans expected.symm
  · exact (logical t (h.logical expected t ht)).trans expected.symm

lemma cyclePreview_mem {g : Grammar} {current next : Term} {forward : Bool}
    (h : g.cyclePreview current forward = some next) :
    next ∈ Grammar.previewGroup current.kind := by
  unfold Grammar.cyclePreview at h
  split at h
  · cases h
  · dsimp only at h
    split at h
    · cases h
    · exact List.mem_of_getElem? h

/-- Stepping to another token of the group keeps the preview one that fits. -/
lemma Previewed.cycle (h : e.Previewed) {current next : Term} {forward : Bool}
    (previewed : e.preview = some current)
    (cycled : e.grammar.cyclePreview current forward = some next) :
    ({ e with preview := some next } : Editor).Previewed := by
  have mem := cyclePreview_mem cycled
  have some : e.preview.isSome := by rw [previewed]; rfl
  refine ⟨⟨fun _ => h.isSome_iff.mp some, fun _ => rfl⟩, ?_, ?_⟩
  · intro expected t ht
    cases ht
    rw [h.kind_eq previewed, show e.expected = Option.some .operator from expected] at mem
    exact mem
  · intro expected t ht
    cases ht
    rw [h.kind_eq previewed, show e.expected = Option.some .logicalOperator from expected] at mem
    exact mem

/-- Deriving the position makes an editor typed, with a preview that fits. -/
lemma settled_reposition (kinds : e.grammar = .filter → ∀ t ∈ e.terms.terms, t.kind.isSome) :
    e.reposition.Typed ∧ e.reposition.Previewed :=
  ⟨typed_reposition kinds, previewed_of_previewFor (typed_reposition kinds).untyped rfl⟩

/-- Committing a term of some kind keeps an editor typed, with a preview that fits. -/
lemma settled_add {t : Term} (ht : e.grammar = .filter → t.kind.isSome) (he : e.Typed) :
    (e.add t).editor.Typed ∧ (e.add t).editor.Previewed := by
  apply settled_reposition
  intro filter x hx
  rcases List.mem_append.mp hx with hx | hx
  · exact he.kinds filter x hx
  · cases List.mem_singleton.mp hx
    exact ht filter

/-- Restoring terms that the grammar accepts makes an editor typed, with a preview that fits. -/
lemma settled_restore {terms : List Term}
    (kinds : e.grammar = .filter → ∀ t ∈ terms, t.kind.isSome) :
    (e.restore terms).Typed ∧ (e.restore terms).Previewed :=
  settled_reposition kinds

/-- Terms that the filter grammar accepts have kinds. -/
lemma kinds_of_accepted {g : Grammar} {terms : List Term} (h : checkTerms g terms = .ok ()) :
    g = .filter → ∀ t ∈ terms, t.kind.isSome := by
  rintro rfl
  exact checkTerms_eq_ok_iff.mp h rfl

/-- Where the expected kind is never missing, a term that has one where it is expected always has
one. -/
lemma Typed.kind {t : Term} (he : e.Typed) (h : e.expected.isSome → t.kind.isSome) :
    e.grammar = .filter → t.kind.isSome := by
  intro filter
  apply h
  rcases he.expected filter with expected | expected | expected | expected <;> rw [expected] <;> rfl

lemma settled_withLine (slot : Slot) (line : Line) (he : e.Typed) (hp : e.Previewed) :
    (e.withLine slot line).Typed ∧ (e.withLine slot line).Previewed := by
  cases slot with
  | input =>
    exact ⟨⟨he.kinds, he.expected, he.untyped, he.initial⟩,
      ⟨hp.isSome_iff, hp.operator, hp.logical⟩⟩
  | term index =>
    exact ⟨⟨he.kinds, he.expected, he.untyped, he.initial⟩,
      ⟨hp.isSome_iff, hp.operator, hp.logical⟩⟩

/-- Every step keeps an editor typed, with a preview that fits. -/
lemma Step.settled (h : Step scope e placed c) (he : e.Typed) (hp : e.Previewed) :
    c.editor.Typed ∧ c.editor.Previewed := by
  cases h with
  | add kind => exact settled_add (he.kind kind) he
  | confirm previewed => exact settled_add (fun _ => hp.kind previewed) he
  | @remove index _ held =>
    rw [remove_eq held]
    obtain ⟨_, _, _, eq⟩ := refocus_eq index (e.without index)
    rw [eq]
    apply settled_reposition
    exact fun filter t ht => he.kinds filter t (List.mem_of_mem_eraseIdx ht)
  | @write slot _ _ _ edited =>
    obtain ⟨_, _, _, _, rfl⟩ := edit_eq edited
    exact settled_withLine slot _ he hp
  | @move slot _ _ _ _ edited =>
    obtain ⟨_, _, _, _, rfl⟩ := edit_eq edited
    exact settled_withLine slot _ he hp
  | cycle previewed cycled =>
    exact ⟨⟨he.kinds, he.expected, he.untyped, he.initial⟩, hp.cycle previewed cycled⟩
  | @replace index old t _ held kind =>
    refine ⟨⟨fun filter x hx => ?_, he.expected, he.untyped, fun empty => ?_⟩,
      ⟨hp.isSome_iff, hp.operator, hp.logical⟩⟩
    · rcases List.mem_or_eq_of_mem_set hx with hx | rfl
      · exact he.kinds filter x hx
      -- The kind of the term that was there is kept, and it is not missing.
      · have old_kind := he.kinds filter old (List.mem_of_getElem? held)
        rw [kind old_kind]
        exact old_kind
    · exact he.initial ((List.set_eq_nil_iff index t).mp empty)
  | enterInput =>
    have typed : Typed { e with
        focus := .input, validity := none, draft := none,
        preview := e.grammar.previewFor e.expected } :=
      ⟨he.kinds, he.expected, he.untyped, he.initial⟩
    exact ⟨typed, previewed_of_previewFor he.untyped rfl⟩
  | reload _ accepted => exact settled_restore (kinds_of_accepted accepted)
  | adopt _ accepted => exact settled_restore (kinds_of_accepted accepted)
  | refresh => exact settled_restore he.kinds
  | _ =>
    exact ⟨⟨he.kinds, he.expected, he.untyped, he.initial⟩,
      ⟨hp.isSome_iff, hp.operator, hp.logical⟩⟩

/-! ## Reachable editors -/

lemma Step.wellFormed (h : Step scope e placed c) (he : e.WellFormed) : c.editor.WellFormed where
  joined := h.joined he.joined
  selected := h.selected he.selected
  focus := h.focusSound he.focus
  lines := h.linesSound he.lines
  typed := (h.settled he.typed he.previewed).1
  previewed := (h.settled he.typed he.previewed).2

/-- An editor is well-formed before its first message. -/
lemma Started.wellFormed (h : Started e) : e.WellFormed := by
  obtain ⟨settings, grammar, terms, accepted, rfl⟩ := h.eq_restore
  have settled := settled_restore (e := Editor.new settings grammar) (kinds_of_accepted accepted)
  exact
    { joined := ⟨rfl, rfl⟩
      selected := nofun
      focus := ⟨nofun, fun _ => ⟨rfl, rfl⟩⟩
      lines := ⟨Line.sound_empty, nofun⟩
      typed := settled.1
      previewed := settled.2 }

lemma WellFormed.run (h : e.WellFormed) (messages : List Message) :
    (e.run messages).WellFormed :=
  invariant_run (fun _ _ _ _ step => step.wellFormed) h messages

/-- Every reachable editor is well-formed. -/
lemma Reachable.wellFormed (h : Reachable e) : e.WellFormed := by
  obtain ⟨start, messages, started, rfl⟩ := h
  exact started.wellFormed.run messages

/-- An editor is well-formed after any messages. -/
theorem wellFormed_run {start : Editor} (h : Started start) (messages : List Message) :
    (start.run messages).WellFormed :=
  h.wellFormed.run messages

/-- An editor for a filter after its first term was opened, changed and left for the input. -/
theorem wellFormed_run_edited :
    Started (ofTree {} (.condition ⟨['a'], ['='], .text ['b'], none⟩)) ∧
      ((ofTree {} (.condition ⟨['a'], ['='], .text ['b'], none⟩)).run
        [.focused (.term 0), .insertChar 'c', .focused .input]).WellFormed :=
  ⟨.ofTree _ _, wellFormed_run (.ofTree _ _) _⟩

end Editor
end FilterEditor
