import FilterEditor.Proofs.Lockstep

/-!
# Loading

A payload is refused for one of four reasons: its text holds no array of terms, its slots are not as
many as the display shows, they are not numbered in order, or one of its terms has no kind where the
grammar needs kinds. `Refuses` lists them with the error that each gives, `Offers` says which terms a
payload stands for otherwise.

All reasons are looked for before anything changes, so a refused payload leaves the session as it was,
and every other payload leaves it with the terms that it offers.
-/

namespace FilterEditor

/-! ## Reading a payload -/

namespace Editor

/-- The slot at `place` is the first that is not numbered in order from `first`. -/
structure Misnumbered (first : Nat) (metas : List SlotMeta) (place : Nat) (slot : SlotMeta) :
    Prop where
  found : metas[place]? = some slot
  wrong : slot.index ≠ first + place
  before : ∀ i (slot : SlotMeta), i < place → metas[i]? = some slot → slot.index = first + i

/-- The term at `index` is the first without a kind. -/
structure Kindless (terms : List Term) (index : Nat) : Prop where
  found : ∃ t, terms[index]? = some t ∧ t.kind = none
  before : ∀ i (t : Term), i < index → terms[i]? = some t → t.kind.isSome

variable {e : Editor} {g : Grammar} {terms : List Term} {metas : List SlotMeta} {payload : Payload}
  {error : LoadError}

lemma misnumbered_zero {first : Nat} {slot : SlotMeta} (wrong : slot.index ≠ first) :
    Misnumbered first (slot :: metas) 0 slot :=
  ⟨rfl, wrong, nofun⟩

/-- Behind a slot that is numbered right, the next number is expected. -/
lemma misnumbered_succ_iff {first place : Nat} {slot wrong : SlotMeta} (right : slot.index = first) :
    Misnumbered first (slot :: metas) (place + 1) wrong ↔
      Misnumbered (first + 1) metas place wrong := by
  have shift : ∀ i, first + (i + 1) = first + 1 + i := fun i => by omega
  constructor
  · intro h
    refine ⟨h.found, shift place ▸ h.wrong, fun i other lt found => ?_⟩
    rw [← shift i]
    exact h.before (i + 1) other (Nat.succ_lt_succ lt) found
  · intro h
    refine ⟨h.found, (shift place).symm ▸ h.wrong, fun i other lt found => ?_⟩
    cases i with
    | zero =>
      cases found
      exact right
    | succ i =>
      rw [shift i]
      exact h.before i other (Nat.lt_of_succ_lt_succ lt) found

/-- Slots are refused just for the first that is not numbered in order. -/
lemma checkSlotsFrom_eq_error_iff {first : Nat} :
    checkSlotsFrom first metas = .error error ↔
      ∃ place slot, Misnumbered first metas place slot ∧
        error = .indexMismatch (first + place) slot.index := by
  induction metas generalizing first with
  | nil =>
    refine ⟨nofun, ?_⟩
    rintro ⟨place, slot, misnumbered, _⟩
    exact nomatch misnumbered.found
  | cons slot rest ih =>
    unfold checkSlotsFrom
    split
    · rename_i right
      rw [ih]
      constructor
      · rintro ⟨place, wrong, misnumbered, rfl⟩
        refine ⟨place + 1, wrong, (misnumbered_succ_iff right).mpr misnumbered, ?_⟩
        rw [show first + (place + 1) = first + 1 + place by omega]
      · rintro ⟨place, wrong, misnumbered, rfl⟩
        cases place with
        | zero =>
          cases misnumbered.found
          exact (misnumbered.wrong right).elim
        | succ place =>
          refine ⟨place, wrong, (misnumbered_succ_iff right).mp misnumbered, ?_⟩
          rw [show first + (place + 1) = first + 1 + place by omega]
    · rename_i wrong
      constructor
      · intro eq
        cases eq
        exact ⟨0, slot, misnumbered_zero wrong, rfl⟩
      · rintro ⟨place, other, misnumbered, rfl⟩
        cases place with
        | zero =>
          cases misnumbered.found
          rfl
        | succ place => exact (wrong (misnumbered.before 0 slot (Nat.succ_pos _) rfl)).elim

lemma checkSlots_eq_ok_iff :
    checkSlots metas = .ok () ↔
      ∀ i (slot : SlotMeta), metas[i]? = some slot → slot.index = i := by
  suffices key : ∀ first, checkSlotsFrom first metas = .ok () ↔
      ∀ i (slot : SlotMeta), metas[i]? = some slot → slot.index = first + i by
    unfold checkSlots
    simpa only [Nat.zero_add] using key 0
  induction metas with
  | nil => simp [checkSlotsFrom]
  | cons slot rest ih =>
    intro first
    unfold checkSlotsFrom
    split
    · rename_i right
      rw [ih]
      constructor
      · intro h i other found
        cases i with
        | zero =>
          cases found
          exact right
        | succ i =>
          have := h i other found
          omega
      · intro h i other found
        have := h (i + 1) other found
        omega
    · rename_i wrong
      exact ⟨by rintro ⟨⟩, fun h => (wrong (h 0 slot rfl)).elim⟩

lemma checkTerms_eq_error_iff :
    checkTerms g terms = .error error ↔
      g.requiresKinds ∧ ∃ index, Kindless terms index ∧ error = .missingKind index := by
  unfold checkTerms
  split
  · rename_i requires
    split
    · rename_i index found
      obtain ⟨lt, none, before⟩ := List.findIdx?_eq_some_iff_getElem.mp found
      have kindless : Kindless terms index := by
        refine ⟨⟨terms[index], List.getElem?_eq_getElem lt, by simpa using none⟩, ?_⟩
        intro i t lt' found
        obtain ⟨_, rfl⟩ := List.getElem?_eq_some_iff.mp found
        simpa [Option.isSome_iff_ne_none] using before i lt'
      constructor
      · intro eq
        cases eq
        exact ⟨requires, index, kindless, rfl⟩
      · rintro ⟨_, index', kindless', rfl⟩
        have same : index = index' := by
          obtain ⟨t, ht, none⟩ := kindless.found
          obtain ⟨t', ht', none'⟩ := kindless'.found
          rcases Nat.lt_trichotomy index index' with lt | eq | lt
          · exact absurd (kindless'.before index t lt ht) (by simp [none])
          · exact eq
          · exact absurd (kindless.before index' t' lt ht') (by simp [none'])
        rw [same]
    · rename_i all
      refine ⟨nofun, ?_⟩
      rintro ⟨_, index, kindless, _⟩
      obtain ⟨t, found, none⟩ := kindless.found
      have := List.findIdx?_eq_none_iff.mp all t (List.mem_of_getElem? found)
      simp [none] at this
  · rename_i plain
    exact ⟨nofun, fun h => (plain h.1).elim⟩

/-- A text without an array of terms and slots out of order cannot be read. -/
lemma payloadTerms_eq_error_iff :
    payloadTerms payload = .error error ↔
      (∃ text, payload = .json text ∧ Term.readList? text = none ∧ error = .invalidJson) ∨
        ∃ metas place slot, payload = .slots metas ∧ Misnumbered 0 metas place slot ∧
          error = .indexMismatch place slot.index := by
  unfold payloadTerms
  cases payload with
  | slots metas =>
    have refused : checkSlots metas = .error error ↔ ∃ place slot,
        Misnumbered 0 metas place slot ∧ error = .indexMismatch (0 + place) slot.index :=
      checkSlotsFrom_eq_error_iff
    simp only [Nat.zero_add] at refused
    cases check : checkSlots metas with
    | error => simpa [check, bind, Except.bind] using refused
    | ok => simpa [check, bind, Except.bind] using refused
  | json text =>
    dsimp only
    split
    · rename_i found
      simp [found]
    · rename_i none
      simp [none, eq_comm]
  | tree => simp
  | terms => simp

/-- An editor refuses what cannot be read and terms that it cannot hold. -/
lemma load_eq_error_iff :
    e.load payload = .error error ↔
      payloadTerms payload = .error error ∨
        ∃ terms, payloadTerms payload = .ok terms ∧ checkTerms e.grammar terms = .error error := by
  unfold load
  cases read : payloadTerms payload with
  | error => simp [bind, Except.bind]
  | ok terms =>
    cases check : checkTerms e.grammar terms with
    | error => simp [check, bind, Except.bind]
    | ok => simp [check, bind, Except.bind]

end Editor

namespace Session

/-- The terms that a payload stands for, on the display of a session. -/
inductive Offers (s : Session) : Payload → List Term → Prop
  /-- Slots stand for their terms if the display shows as many, numbered in order. -/
  | slots {metas : List SlotMeta} (count : s.display.prerendered.length = metas.length)
      (ordered : ∀ i (slot : SlotMeta), metas[i]? = some slot → slot.index = i) :
      Offers s (.slots metas) (metas.map (·.term))
  /-- A text stands for the array of terms that it holds. -/
  | json {text : Text} {terms : List Term} (read : Term.readList? text = some terms) :
      Offers s (.json text) terms
  | tree (tree : Tree) : Offers s (.tree tree) tree.terms
  | terms (terms : List Term) : Offers s (.terms terms) terms

/-- Why a session refuses a payload. -/
inductive Refuses (s : Session) : Payload → LoadError → Prop
  /-- The text holds no array of terms. -/
  | unreadable {text : Text} (none : Term.readList? text = none) :
      Refuses s (.json text) .invalidJson
  /-- The display shows another number of slots. -/
  | count {metas : List SlotMeta} (other : s.display.prerendered.length ≠ metas.length) :
      Refuses s (.slots metas) (.indexMismatch s.display.prerendered.length metas.length)
  /-- A slot is not numbered in order. -/
  | misnumbered {metas : List SlotMeta} {place : Nat} {slot : SlotMeta}
      (count : s.display.prerendered.length = metas.length)
      (misnumbered : Editor.Misnumbered 0 metas place slot) :
      Refuses s (.slots metas) (.indexMismatch place slot.index)
  /-- A term has no kind, where the grammar needs kinds. -/
  | kindless {payload : Payload} {terms : List Term} {index : Nat}
      (offered : Offers s payload terms) (requires : s.editor.grammar.requiresKinds)
      (kindless : Editor.Kindless terms index) : Refuses s payload (.missingKind index)

variable {s s' : Session} {payload : Payload} {error : LoadError} {terms : List Term}

/-! ## What is refused -/

lemma adopted?_slots (s : Session) (metas : List SlotMeta) :
    s.adopted? (.slots metas) =
      if s.display.prerendered.length = metas.length then
        .ok (some (s.display.prerendered.map (·.1)))
      else .error (.indexMismatch s.display.prerendered.length metas.length) := by
  simp [adopted?]

/-- A payload offers the terms that are read from it, once its slots are as many as those shown. -/
lemma offers_iff :
    s.Offers payload terms ↔
      (∃ handles, s.adopted? payload = .ok handles) ∧ Editor.payloadTerms payload = .ok terms := by
  cases payload with
  | slots metas =>
    rw [adopted?_slots]
    unfold Editor.payloadTerms
    constructor
    · rintro ⟨count, ordered⟩
      simp [count, Editor.checkSlots_eq_ok_iff.mpr ordered, bind, Except.bind]
    · rintro ⟨⟨handles, adopted⟩, read⟩
      split at adopted
      · rename_i count
        cases check : Editor.checkSlots metas with
        | error => simp [check, bind, Except.bind] at read
        | ok =>
          simp only [check, bind, Except.bind, Except.ok.injEq] at read
          rw [← read]
          exact .slots count (Editor.checkSlots_eq_ok_iff.mp check)
      · cases adopted
  | json text =>
    unfold Editor.payloadTerms
    constructor
    · intro offered
      cases offered with
      | json read =>
        refine ⟨⟨none, rfl⟩, ?_⟩
        dsimp only
        rw [read]
    · rintro ⟨_, read⟩
      dsimp only at read
      split at read
      · rename_i found
        cases read
        exact .json found
      · cases read
  | tree tree =>
    constructor
    · rintro ⟨⟩
      exact ⟨⟨none, rfl⟩, rfl⟩
    · rintro ⟨_, read⟩
      cases read
      exact .tree tree
  | terms terms =>
    constructor
    · rintro ⟨⟩
      exact ⟨⟨none, rfl⟩, rfl⟩
    · rintro ⟨_, read⟩
      cases read
      exact .terms terms

/-- A running session looks at its display first, at the payload next and at its terms last. -/
lemma load_eq_error_cases (running : s.destroyed = false) :
    s.load payload = .error error ↔
      s.adopted? payload = .error error ∨
        ∃ handles, s.adopted? payload = .ok handles ∧ s.editor.load payload = .error error := by
  unfold load
  rw [if_neg (Bool.eq_false_iff.mp running)]
  cases adopted : s.adopted? payload with
  | error => simp [bind, Except.bind]
  | ok handles =>
    cases s.editor.load payload with
    | error => simp [bind, Except.bind]
    | ok => simp [bind, Except.bind]

/-- A running session refuses a payload just for the reasons that are listed. -/
lemma load_eq_error_iff (running : s.destroyed = false) :
    s.load payload = .error error ↔ s.Refuses payload error := by
  rw [load_eq_error_cases running]
  constructor
  · rintro (adopted | ⟨handles, adopted, refused⟩)
    · cases payload with
      | slots metas =>
        rw [adopted?_slots] at adopted
        split at adopted
        · cases adopted
        · rename_i other
          cases adopted
          exact .count other
      | _ => cases adopted
    · rcases Editor.load_eq_error_iff.mp refused with unread | ⟨terms, read, lacking⟩
      · rcases Editor.payloadTerms_eq_error_iff.mp unread with
          ⟨text, rfl, none, rfl⟩ | ⟨metas, place, slot, rfl, misnumbered, rfl⟩
        · exact .unreadable none
        · refine .misnumbered ?_ misnumbered
          rw [adopted?_slots] at adopted
          split at adopted
          · assumption
          · cases adopted
      · obtain ⟨requires, index, kindless, rfl⟩ := Editor.checkTerms_eq_error_iff.mp lacking
        exact .kindless (offers_iff.mpr ⟨⟨handles, adopted⟩, read⟩) requires kindless
  · intro refused
    cases refused with
    | unreadable none =>
      refine .inr ⟨_, rfl, Editor.load_eq_error_iff.mpr (.inl ?_)⟩
      exact Editor.payloadTerms_eq_error_iff.mpr (.inl ⟨_, rfl, none, rfl⟩)
    | count other =>
      left
      rw [adopted?_slots, if_neg other]
    | misnumbered count misnumbered =>
      right
      rw [adopted?_slots, if_pos count]
      refine ⟨_, rfl, Editor.load_eq_error_iff.mpr (.inl ?_)⟩
      exact Editor.payloadTerms_eq_error_iff.mpr (.inr ⟨_, _, _, rfl, misnumbered, rfl⟩)
    | kindless offered requires kindless =>
      obtain ⟨⟨handles, adopted⟩, read⟩ := offers_iff.mp offered
      refine .inr ⟨handles, adopted, Editor.load_eq_error_iff.mpr (.inr ⟨_, read, ?_⟩)⟩
      exact Editor.checkTerms_eq_error_iff.mpr ⟨requires, _, kindless, rfl⟩

/-! ## What is restored -/

lemma adopt_editor (s : Session) (handles : Option (List Nat)) :
    (s.adopt handles).editor = s.editor := by
  cases handles <;> rfl

lemma apply_editor (s : Session) (command : Command) : (s.apply command).editor = s.editor := by
  obtain ⟨_, _, _, eq⟩ := apply_eq s command
  rw [eq]

/-- A payload that is restored leaves the terms that it offers. -/
lemma offers_of_load (running : s.destroyed = false) (loaded : s.load payload = .ok s') :
    s.Offers payload s'.editor.terms.terms := by
  obtain ⟨handles, change, adopted, load, rfl⟩ := load_eq running loaded
  obtain ⟨terms, read, _, rfl⟩ := Editor.load_eq_ok load
  rw [apply_editor, adopt_editor]
  exact offers_iff.mpr ⟨⟨handles, adopted⟩, read⟩

lemma dispatch_load (running : s.destroyed = false) :
    s.dispatch (.load payload) = s.act (.load payload) :=
  if_neg (Bool.eq_false_iff.mp running)

/-- A running session refuses a payload just if its text holds no array of terms, its slots are
another number than the display shows or not numbered in order, or one of its terms lacks the kind
that the grammar requires. A payload that is refused changes nothing, whichever way it comes, and any
other leaves the terms that it stands for. -/
theorem load_all_or_nothing (running : s.destroyed = false) (payload : Payload) :
    (∀ error, s.load payload = .error error ↔ s.Refuses payload error) ∧
      (∀ error, s.Refuses payload error →
        s.act (.load payload) = s ∧ s.dispatch (.load payload) = s) ∧
      ((∀ error, ¬ s.Refuses payload error) →
        ∃ s', s.load payload = .ok s' ∧ s.act (.load payload) = s' ∧
          s.dispatch (.load payload) = s' ∧ s.Offers payload s'.editor.terms.terms) := by
  refine ⟨fun error => load_eq_error_iff running, fun error refused => ?_, fun accepted => ?_⟩
  · have unchanged : s.act (.load payload) = s := by
      rw [act, (load_eq_error_iff running).mpr refused]
    exact ⟨unchanged, (dispatch_load running).trans unchanged⟩
  · cases loaded : s.load payload with
    | error error => exact (accepted error ((load_eq_error_iff running).mp loaded)).elim
    | ok s' =>
      have changed : s.act (.load payload) = s' := by rw [act, loaded]
      exact ⟨s', rfl, changed, (dispatch_load running).trans changed,
        offers_of_load running loaded⟩

/-- A display with one slot takes no other number of slots, and takes none out of order. -/
theorem load_all_or_nothing_column :
    Refuses (start (Editor.new {} .filter) columnDisplay {}) (.slots [⟨1, .column ['b']⟩])
        (.indexMismatch 0 1) ∧
      dispatch (.load (.slots [⟨1, .column ['b']⟩]))
          (start (Editor.new {} .filter) columnDisplay {}) =
        start (Editor.new {} .filter) columnDisplay {} := by
  have refused : Refuses (start (Editor.new {} .filter) columnDisplay {})
      (.slots [⟨1, .column ['b']⟩]) (.indexMismatch 0 1) :=
    .misnumbered rfl (Editor.misnumbered_zero (by decide))
  exact ⟨refused, ((load_all_or_nothing rfl _).2.1 _ refused).2⟩

end Session
end FilterEditor
