import FilterEditor.Proofs.Genuine
import FilterEditor.Proofs.Navigation
import Mathlib.Data.Nat.ModEq

/-!
# The cycle of slots

Moving the focus forward leads from the trailing input through the slots of all terms and back to the
input. Slots are counted along this cycle: the input stands at place zero and every term at the place
behind its index, and places go on from one round to the next (`slotAt`). A move forward is then one
place more, and a move backward one place less. What many moves come to follows by counting places modulo
the number of slots.
-/

namespace FilterEditor

/-- The slot that a command moves the focus to, if it does so and nothing else. -/
def Command.target? : Command → Option Slot
  | .one (.focus slot) => some slot
  | _ => .none

namespace Slot

/-- The place of a slot in the cycle. -/
def place : Slot → Nat
  | .input => 0
  | .term index => index + 1

/-- The slot at a place of the first round. -/
def ofPlace : Nat → Slot
  | 0 => .input
  | index + 1 => .term index

/-- The slot at a place of any round, for a number of terms. -/
def slotAt (terms place : Nat) : Slot := ofPlace (place % (terms + 1))

lemma place_ofPlace (place : Nat) : (ofPlace place).place = place := by
  cases place <;> rfl

lemma ofPlace_place (slot : Slot) : ofPlace slot.place = slot := by
  cases slot <;> rfl

lemma slotAt_of_le {terms place : Nat} (first : place ≤ terms) : slotAt terms place = ofPlace place :=
  congrArg ofPlace (Nat.mod_eq_of_lt (Nat.lt_succ_of_le first))

/-- Two places have the same slot just if they lie whole rounds apart. -/
lemma slotAt_eq_iff {terms place place' : Nat} :
    slotAt terms place = slotAt terms place' ↔ place ≡ place' [MOD terms + 1] := by
  refine ⟨fun same => ?_, congrArg ofPlace⟩
  have same := congrArg Slot.place same
  rwa [slotAt, slotAt, place_ofPlace, place_ofPlace] at same

/-- Two slots in succession stand in one round, or one ends a round and the other begins the next. -/
lemma slotAt_succession (terms place : Nat) :
    (∃ first < terms, slotAt terms place = ofPlace first ∧
      slotAt terms (place + 1) = ofPlace (first + 1)) ∨
    (slotAt terms place = ofPlace terms ∧ slotAt terms (place + 1) = .input) := by
  have round : place % (terms + 1) ≤ terms := Nat.le_of_lt_succ (Nat.mod_lt place (Nat.succ_pos terms))
  have next : (place + 1) % (terms + 1) = (place % (terms + 1) + 1) % (terms + 1) :=
    (Nat.mod_add_mod place (terms + 1) 1).symm
  rcases round.lt_or_eq with more | last
  · refine .inl ⟨place % (terms + 1), more, rfl, ?_⟩
    rw [slotAt, next, Nat.mod_eq_of_lt (Nat.succ_lt_succ more)]
  · refine .inr ⟨congrArg ofPlace last, ?_⟩
    rw [slotAt, next, last, Nat.mod_self]
    rfl

/-- Within a round from any place, every slot is come to exactly once. -/
lemma existsUnique_slotAt (terms place place' : Nat) :
    ∃! moves, moves ≤ terms ∧ slotAt terms (place + moves) = slotAt terms place' := by
  refine existsUnique_of_exists_of_unique ⟨(place' + terms * place) % (terms + 1), ?_, ?_⟩ ?_
  · exact Nat.le_of_lt_succ (Nat.mod_lt _ (Nat.succ_pos terms))
  · apply slotAt_eq_iff.mpr
    calc place + (place' + terms * place) % (terms + 1)
      _ ≡ place + (place' + terms * place) [MOD terms + 1] := (Nat.mod_modEq _ _).add_left place
      _ = place' + (terms + 1) * place := by
        rw [Nat.add_mul, Nat.one_mul]
        omega
      _ ≡ place' [MOD terms + 1] := Nat.add_modulus_mul_modEq_iff.mpr (.refl place')
  · rintro moves moves' ⟨le, here⟩ ⟨le', here'⟩
    have same : place + moves ≡ place + moves' [MOD terms + 1] :=
      slotAt_eq_iff.mp (here.trans here'.symm)
    exact (same.add_left_cancel' place).eq_of_lt_of_lt (Nat.lt_succ_of_le le) (Nat.lt_succ_of_le le')

/-- The next place has another slot. -/
lemma slotAt_succ_ne {terms : Nat} (filled : 0 < terms) (place : Nat) :
    slotAt terms (place + 1) ≠ slotAt terms place := by
  intro same
  have round : terms + 1 ∣ 1 := Nat.add_modEq_left_iff.mp (slotAt_eq_iff.mp same)
  exact filled.ne' (Nat.succ.inj (Nat.dvd_one.mp round))

end Slot

namespace Editor

open Slot (slotAt ofPlace)

variable {e : Editor} {slot : Slot}

/-- A slot that there is: the trailing input, or the slot of a term. -/
def HasSlot (e : Editor) (slot : Slot) : Prop := ∀ index, slot = .term index → index < e.terms.length

/-- The slot that a message asks to move the focus to, from a slot. -/
def target? (e : Editor) (message : Message) (slot : Slot) : Option Slot :=
  ({ e with focus := slot }.update message).2.target?

/-- The slot after a number of moves, each of them to the slot that the message asks for. -/
def walk? (e : Editor) (message : Message) : Nat → Slot → Option Slot
  | 0, slot => some slot
  | moves + 1, slot => (e.walk? message moves slot).bind (e.target? message)

/-- The editor once a message has asked for a slot and the display has taken the focus there. -/
def pursue (message : Message) (e : Editor) : Editor :=
  match e.target? message e.focus with
  | some slot => e.run [message, .focused slot]
  | none => e.run [message]

/-! ## Places -/

lemma hasTerms_iff : e.hasTerms = true ↔ 0 < e.terms.length := by
  simp [hasTerms, Sequence.isEmpty, Sequence.length, List.length_pos_iff]

lemma hasSlot_ofPlace_iff {place : Nat} : e.HasSlot (ofPlace place) ↔ place ≤ e.terms.length := by
  cases place with
  | zero => exact iff_of_true nofun (Nat.zero_le _)
  | succ index =>
    refine ⟨fun there => there index rfl, ?_⟩
    rintro le _ ⟨⟩
    exact le

lemma HasSlot.place_le (there : e.HasSlot slot) : slot.place ≤ e.terms.length := by
  rw [← slot.ofPlace_place] at there
  exact hasSlot_ofPlace_iff.mp there

lemma HasSlot.slotAt_place (there : e.HasSlot slot) : slotAt e.terms.length slot.place = slot := by
  rw [Slot.slotAt_of_le there.place_le, slot.ofPlace_place]

lemma hasSlot_slotAt (e : Editor) (place : Nat) : e.HasSlot (slotAt e.terms.length place) :=
  hasSlot_ofPlace_iff.mpr (Nat.le_of_lt_succ (Nat.mod_lt place (Nat.succ_pos _)))

/-- The focus of a reachable editor is in a slot that there is. -/
lemma Reachable.hasSlot (h : e.Reachable) : e.HasSlot e.focus :=
  fun index focus => (h.wellFormed.focus.term index focus).1

/-! ## Moves -/

lemma target?_focusEffects (asked : Option Slot) :
    (Command.ofEffects (focusEffects asked)).target? = asked := by
  cases asked with
  | none => rfl
  | some slot => rfl

lemma target?_forward (e : Editor) (slot : Slot) :
    e.target? .forward slot = { e with focus := slot }.nextSlot? :=
  target?_focusEffects _

lemma target?_backward (e : Editor) (slot : Slot) :
    e.target? .backward slot = { e with focus := slot }.previousSlot? :=
  target?_focusEffects _

/-- A move forward is one place more. -/
lemma target?_forward_slotAt (filled : 0 < e.terms.length) (place : Nat) :
    e.target? .forward (slotAt e.terms.length place) = some (slotAt e.terms.length (place + 1)) := by
  rw [target?_forward]
  rcases Slot.slotAt_succession e.terms.length place with ⟨first, more, here, next⟩ | ⟨here, next⟩
  · rw [here, next]
    cases first with
    | zero => exact if_pos (hasTerms_iff.mpr filled)
    | succ index => exact congrArg some (if_pos more)
  · obtain ⟨last, length⟩ := Nat.exists_eq_succ_of_ne_zero filled.ne'
    rw [here, next, length]
    exact congrArg some (if_neg length.le.not_gt)

/-- A move backward is one place less. -/
lemma target?_backward_slotAt (filled : 0 < e.terms.length) (place : Nat) :
    e.target? .backward (slotAt e.terms.length (place + 1)) = some (slotAt e.terms.length place) := by
  rw [target?_backward]
  rcases Slot.slotAt_succession e.terms.length place with ⟨first, more, here, next⟩ | ⟨here, next⟩
  · rw [here, next]
    cases first with
    | zero => rfl
    | succ index => rfl
  · obtain ⟨last, length⟩ := Nat.exists_eq_succ_of_ne_zero filled.ne'
    rw [here, next, length]
    refine (if_pos (hasTerms_iff.mpr filled)).trans ?_
    rw [length]
    rfl

/-- After a number of moves forward, the slot is as many places on. -/
lemma walk?_forward (filled : 0 < e.terms.length) (there : e.HasSlot slot) (moves : Nat) :
    e.walk? .forward moves slot = some (slotAt e.terms.length (slot.place + moves)) := by
  induction moves with
  | zero => exact congrArg some there.slotAt_place.symm
  | succ moves ih =>
    rw [walk?, ih]
    exact target?_forward_slotAt filled _

/-! ## Following the moves -/

lemma length_focused (slot : Slot) (e : Editor) :
    (e.focused slot).editor.terms.length = e.terms.length := by
  by_cases reached : e.Reached slot
  · have stays : e.focused slot = e.unchanged := if_pos reached
    rw [stays]
    rfl
  · rcases focused_away reached with ⟨_, eq⟩ | ⟨left, _, ⟨_, eq⟩ | ⟨_, eq⟩⟩
    · rw [eq, terms_enter]
    · rw [eq, Change.andThen, terms_enter, save_length]
    · rw [eq, Change.andShow, save_length]

lemma reached_iff : e.Reached slot ↔ slot = e.focus ∨ ¬ e.HasSlot slot := by
  refine or_congr_right ?_
  cases slot with
  | input => exact iff_of_false nofun (not_not.mpr nofun)
  | term index => simp [Slot.index?, HasSlot]

/-- The display takes the focus where a move forward asks for, unless a draft is refused. -/
lemma pursue_forward (filled : 0 < e.terms.length) (there : e.HasSlot e.focus) (free : ¬ e.Stuck) :
    (e.pursue .forward).focus = slotAt e.terms.length (e.focus.place + 1) ∧
      (e.pursue .forward).terms.length = e.terms.length := by
  have asked := target?_forward_slotAt filled e.focus.place
  have other := Slot.slotAt_succ_ne filled e.focus.place
  rw [there.slotAt_place] at asked other
  have away : ¬ e.Reached (slotAt e.terms.length (e.focus.place + 1)) := by
    rw [reached_iff, not_or, not_not]
    exact ⟨other, hasSlot_slotAt _ _⟩
  have moved : e.pursue .forward = (e.focused (slotAt e.terms.length (e.focus.place + 1))).editor := by
    rw [pursue, asked]
    rfl
  rw [moved]
  refine ⟨?_, length_focused _ e⟩
  have ended := focused_cases (slotAt e.terms.length (e.focus.place + 1)) e
  generalize e.focused _ = c at ended
  cases ended with
  | stays reached => exact (away reached).elim
  | enters _ _ focus _ => exact focus
  | refused _ stuck => exact (free stuck).elim

/-- As long as no draft is refused, the focus goes on by one place a move. -/
lemma pursue_forward_iterate (filled : 0 < e.terms.length) (there : e.HasSlot e.focus) {moves : Nat}
    (free : ∀ before < moves, ¬ ((pursue .forward)^[before] e).Stuck) :
    ((pursue .forward)^[moves] e).focus = slotAt e.terms.length (e.focus.place + moves) ∧
      ((pursue .forward)^[moves] e).terms.length = e.terms.length := by
  induction moves with
  | zero => exact ⟨there.slotAt_place.symm, rfl⟩
  | succ moves ih =>
    obtain ⟨focus, length⟩ := ih fun before earlier => free before (Nat.lt_succ_of_lt earlier)
    have there' : ((pursue .forward)^[moves] e).HasSlot ((pursue .forward)^[moves] e).focus := by
      rw [focus, ← length]
      exact hasSlot_slotAt _ _
    obtain ⟨focus', length'⟩ :=
      pursue_forward (length ▸ filled) there' (free moves (Nat.lt_succ_self moves))
    rw [Function.iterate_succ_apply']
    refine ⟨?_, length'.trans length⟩
    rw [focus', length]
    -- The focus itself knows no rounds: its place is the count of places only up to whole rounds.
    apply Slot.slotAt_eq_iff.mpr
    rw [focus, slotAt, Slot.place_ofPlace]
    exact (Nat.mod_modEq _ _).add_right 1

/-! ## The cycle -/

/-- Without terms the trailing input is the only slot. -/
lemma HasSlot.eq_input (there : e.HasSlot slot) (empty : e.terms.length = 0) : slot = .input := by
  cases slot with
  | input => rfl
  | term index => exact (Nat.not_lt_zero index (empty ▸ there index rfl)).elim

/-- A move forward and a move backward undo each other. -/
lemma moves_inverse (filled : 0 < e.terms.length) (there : e.HasSlot slot) :
    (∃ next, e.HasSlot next ∧ e.target? .forward slot = some next ∧
      e.target? .backward next = some slot) ∧
    ∃ previous, e.HasSlot previous ∧ e.target? .backward slot = some previous ∧
      e.target? .forward previous = some slot := by
  have here : slotAt e.terms.length slot.place = slot := there.slotAt_place
  -- Going back by one place is going on by all others, which keeps places from falling below zero.
  have round : slotAt e.terms.length (slot.place + e.terms.length + 1) = slot :=
    (Slot.slotAt_eq_iff.mpr Nat.add_modEq_right).trans here
  constructor
  · refine ⟨_, hasSlot_slotAt e (slot.place + 1), ?_, ?_⟩
    · rw [← target?_forward_slotAt filled, here]
    · rw [target?_backward_slotAt filled, here]
  · refine ⟨_, hasSlot_slotAt e (slot.place + e.terms.length), ?_, ?_⟩
    · rw [← target?_backward_slotAt filled, round]
    · rw [target?_forward_slotAt filled, round]

/-- The slots form one cycle. Going forward from any of them, every slot is come to exactly once before
the first one comes again, which takes one move more than there are terms; going backward undoes going
forward. The focus goes all the way along, as long as no draft is refused. Without terms there is
nowhere to go, and nothing is asked for. -/
theorem slots_form_cycle (e : Editor) :
    let n := e.terms.length
    (0 < n → ∀ slot, e.HasSlot slot →
      (∀ other, e.HasSlot other → ∃! moves, moves ≤ n ∧ e.walk? .forward moves slot = some other) ∧
      (∀ moves, e.walk? .forward moves slot = some slot ↔ n + 1 ∣ moves) ∧
      (∃ next, e.HasSlot next ∧ e.target? .forward slot = some next ∧
        e.target? .backward next = some slot) ∧
      ∃ previous, e.HasSlot previous ∧ e.target? .backward slot = some previous ∧
        e.target? .forward previous = some slot) ∧
    (e.Reachable → e.HasSlot e.focus) ∧
    (e.HasSlot e.focus →
      (0 < n → ∀ moves, (∀ before < moves, ¬ ((pursue .forward)^[before] e).Stuck) →
        e.walk? .forward moves e.focus = some ((pursue .forward)^[moves] e).focus) ∧
      (n = 0 → e.update .forward = (e, .none) ∧ e.update .backward = (e, .none))) := by
  intro n
  refine ⟨fun filled slot there => ⟨fun other there' => ?_, fun moves => ?_, moves_inverse filled there⟩,
    Reachable.hasSlot, fun there => ⟨fun filled moves free => ?_, fun empty => ?_⟩⟩
  · simp only [walk?_forward filled there, Option.some.injEq]
    rw [← there'.slotAt_place]
    exact Slot.existsUnique_slotAt n slot.place other.place
  · rw [walk?_forward filled there, Option.some.injEq, ← Nat.add_modEq_left_iff, ← Slot.slotAt_eq_iff,
      there.slotAt_place]
  · rw [walk?_forward filled there, (pursue_forward_iterate filled there free).1]
  · have bare : ¬ e.hasTerms = true := fun filled => (hasTerms_iff.mp filled).ne' empty
    have focus := there.eq_input empty
    have next : e.nextSlot? = none := by
      rw [nextSlot?, focus]
      exact if_neg bare
    have previous : e.previousSlot? = none := by
      rw [previousSlot?, focus]
      exact if_neg bare
    constructor
    · rw [update, respond, next]
      rfl
    · rw [update, respond, previous]
      rfl

/-- A single condition, gone round from its value, with the focus itself moved twice from the trailing
input; and an editor without terms. -/
theorem slots_form_cycle_condition :
    let e := ofTree {} (.condition ⟨['a'], ['='], .text ['v'], none⟩)
    let bare := new {} .filter
    0 < e.terms.length ∧ e.HasSlot (.term 2) ∧ e.HasSlot (.term 1) ∧
      (∃! moves, moves ≤ 3 ∧ e.walk? .forward moves (.term 2) = some (.term 1)) ∧
      e.walk? .forward 4 (.term 2) = some (.term 2) ∧
      e.Reachable ∧ (∀ before < 2, ¬ ((pursue .forward)^[before] e).Stuck) ∧
      e.walk? .forward 2 .input = some ((pursue .forward)^[2] e).focus ∧
      bare.terms.length = 0 ∧ bare.HasSlot bare.focus ∧ bare.update .forward = (bare, .none) := by
  intro e bare
  have filled : 0 < e.terms.length := by decide
  have start : e.HasSlot (.term 2) := by
    rintro _ ⟨⟩
    decide
  have other : e.HasSlot (.term 1) := by
    rintro _ ⟨⟩
    decide
  have reachable : e.Reachable := ⟨_, [], .ofTree {} _, rfl⟩
  have free : ∀ before < 2, ¬ ((pursue .forward)^[before] e).Stuck := by
    intro before lt stuck
    match before, lt with
    | 0, _ => exact stuck.focus_ne rfl
    | 1, _ =>
      obtain ⟨_, _, _, _, focus, edited, check⟩ := stuck
      have valid : (pursue .forward e).check (.term 0) ['a'] = .valid := by decide
      cases focus
      cases edited
      cases valid.symm.trans check
  have lone : bare.HasSlot bare.focus := nofun
  obtain ⟨cycle, reached, along⟩ := slots_form_cycle e
  obtain ⟨visits, returns, _⟩ := cycle filled (.term 2) start
  have followed := (along (reached reachable)).1 filled 2 free
  obtain ⟨quiet, _⟩ := ((slots_form_cycle bare).2.2 lone).2 rfl
  exact ⟨filled, start, other, visits (.term 1) other, (returns 4).mpr (Nat.dvd_refl 4), reachable, free,
    followed, rfl, lone, quiet⟩

end Editor
end FilterEditor
