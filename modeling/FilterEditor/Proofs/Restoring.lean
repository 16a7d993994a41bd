import FilterEditor.Proofs.Keeping

/-!
# Restoring

Loading, refreshing and resetting put other terms in the place of all terms and drop everything under
way, so the editor is the one that starts with these terms. One field is forgotten: the mark that the
input is required. It is set when an editor without terms is submitted and stays until the next
submission, whatever is restored in between.

`required_respond` says that no other message touches the mark; with it, a run restores afresh just if
its last submission did not set the mark.
-/

namespace FilterEditor.Editor

variable {e : Editor} {c : Change} {message : Message}

/-- Whatever way terms are restored, the editor compares with the one that starts with them. -/
structure Restores (compares : Editor → Editor → Prop) (e : Editor) : Prop where
  load : ∀ payload c, e.load payload = .ok c → ∃ terms fresh,
    payloadTerms payload = .ok terms ∧ ofTerms e.settings e.grammar terms = .ok fresh ∧
      compares (e.respond (.load payload)).editor fresh
  refresh : ∃ fresh, ofTerms e.settings e.grammar e.terms.terms = .ok fresh ∧
    compares (e.respond .refresh).editor fresh
  reset : compares (e.respond .reset).editor (new e.settings e.grammar)

/-- Editors that differ in the mark at most. -/
def SameButMark (e fresh : Editor) : Prop := e = { fresh with required := e.required }

/-- The last submission of a run left no terms, and the settings ask to mark that. -/
def Demanded (start : Editor) (messages : List Message) : Prop :=
  start.settings.manageRequired ∧ ∃ before after,
    messages = before ++ .submit :: after ∧ .submit ∉ after ∧
      (start.run (before ++ [.submit])).hasTerms = false

/-! ## Restored editors -/

lemma restore_eq (terms : List Term) (e : Editor) :
    e.restore terms = { (new e.settings e.grammar).restore terms with required := e.required } :=
  rfl

lemma ofTerms_of_accepted {settings : Settings} {grammar : Grammar} {terms : List Term}
    (accepted : checkTerms grammar terms = .ok ()) :
    ofTerms settings grammar terms = .ok ((new settings grammar).restore terms) := by
  simp only [ofTerms, accepted, bind, Except.bind]

lemma respond_load {payload : Payload} (loaded : e.load payload = .ok c) :
    e.respond (.load payload) = c := by
  have eq : e.respond (.load payload) = e.loadOrIgnore payload := rfl
  rw [eq, loadOrIgnore, loaded]

/-- The terms of a well-formed editor can be restored. -/
lemma WellFormed.accepted (h : e.WellFormed) : checkTerms e.grammar e.terms.terms = .ok () := by
  apply checkTerms_eq_ok_iff.mpr
  intro requires
  apply h.typed.kinds
  cases grammar : e.grammar with
  | filter => rfl
  | plain =>
    rw [grammar] at requires
    cases requires

/-- Restoring gives back the editor that starts with the terms, but for the mark. -/
lemma WellFormed.restores_of {compares : Editor → Editor → Prop} (h : e.WellFormed)
    (restored : ∀ terms,
      compares (e.restore terms) ((new e.settings e.grammar).restore terms)) :
    e.Restores compares where
  load := by
    intro payload c loaded
    obtain ⟨terms, read, accepted, rfl⟩ := load_eq_ok loaded
    refine ⟨terms, _, read, ofTerms_of_accepted accepted, ?_⟩
    rw [respond_load loaded]
    exact restored terms
  refresh := ⟨_, ofTerms_of_accepted h.accepted, restored e.terms.terms⟩
  reset := restored []

/-- An editor restores afresh just if it is not marked. -/
lemma WellFormed.restores_iff (h : e.WellFormed) :
    e.Restores (· = ·) ↔ e.required = false := by
  constructor
  · intro restores
    exact congrArg Editor.required restores.reset
  · intro unmarked
    apply h.restores_of
    intro terms
    rw [restore_eq, unmarked]
    rfl

/-! ## The mark -/

lemma required_load (payload : Payload) (e : Editor) :
    (e.loadOrIgnore payload).editor.required = e.required := by
  unfold loadOrIgnore
  split
  · rename_i loaded
    obtain ⟨_, _, _, rfl⟩ := load_eq_ok loaded
    rfl
  · rfl

/-- Only a submission touches the mark. -/
lemma required_respond (other : message ≠ .submit) :
    (e.respond message).editor.required = e.required := by
  by_cases edit : message.isEdit
  · exact (keeps_respond edit e).required
  by_cases motion : message.isMotion
  · exact (motion_respond motion e).required
  · cases message with
    | load payload => exact required_load payload e
    | refresh => rfl
    | reset => rfl
    | focused slot => exact required_focused slot e
    | submit => exact (other rfl).elim
    | _ => first | exact (edit rfl).elim | exact (motion rfl).elim

/-- A submission sets the mark where the settings ask for it and no terms are left. -/
lemma required_submit (e : Editor) :
    (e.respond .submit).editor.required =
      if e.settings.manageRequired then !(e.respond .submit).editor.hasTerms else e.required := by
  have submitted : (e.respond .submit).editor = e.exchange.editor.markRequired.editor := rfl
  have settings : e.exchange.editor.settings = e.settings := (frame_run e [.exchange]).1
  rw [submitted]
  unfold markRequired
  rw [settings]
  split
  · rfl
  · exact (keeps_exchange e).required

/-! ## Runs -/

/-- Messages without a submission keep the mark. -/
lemma required_run {messages : List Message} (quiet : .submit ∉ messages) (e : Editor) :
    (e.run messages).required = e.required := by
  induction messages generalizing e with
  | nil => rfl
  | cons message rest ih =>
    have other : message ≠ .submit := fun eq => quiet (eq ▸ List.mem_cons_self)
    have kept : (e.respond message).editor.required = e.required := required_respond other
    have rest_kept := ih (fun mem => quiet (List.mem_cons_of_mem _ mem)) (e.respond message).editor
    exact rest_kept.trans kept

/-- The mark behind the last submission is the one that it left. -/
lemma required_submission {before after : List Message} (quiet : .submit ∉ after) (e : Editor) :
    (e.run (before ++ .submit :: after)).required =
      if e.settings.manageRequired then !(e.run (before ++ [.submit])).hasTerms
      else (e.run before).required := by
  have split : before ++ .submit :: after = before ++ [.submit] ++ after := by
    rw [List.append_assoc, List.singleton_append]
  have submitted : e.run (before ++ [.submit]) = ((e.run before).respond .submit).editor :=
    run_append e before [.submit]
  rw [split, run_append, required_run quiet, submitted, required_submit, (frame_run e before).1]

/-- Where the settings do not ask for it, nothing is ever marked. -/
lemma required_unmanaged {messages : List Message} (unmanaged : e.settings.manageRequired = false)
    (unmarked : e.required = false) : (e.run messages).required = false := by
  induction messages generalizing e with
  | nil => exact unmarked
  | cons message rest ih =>
    have settings : (e.respond message).editor.settings = e.settings := (frame_run e [message]).1
    refine ih (e := (e.respond message).editor) (settings ▸ unmanaged) ?_
    by_cases submit : message = .submit
    · subst submit
      rw [required_submit, unmanaged]
      exact unmarked
    · exact (required_respond submit).trans unmarked

/-- A run either submits nothing or has a last submission. -/
lemma last_submission (messages : List Message) :
    .submit ∉ messages ∨
      ∃ before after, messages = before ++ .submit :: after ∧ .submit ∉ after := by
  induction messages with
  | nil => exact .inl List.not_mem_nil
  | cons message rest ih =>
    rcases ih with quiet | ⟨before, after, rfl, quiet⟩
    · cases message with
      | submit => exact .inr ⟨[], rest, rfl, quiet⟩
      | _ => exact .inl (by simpa using quiet)
    · exact .inr ⟨message :: before, after, rfl, quiet⟩

/-- The mark after a run is the one that its last submission left. -/
lemma required_run_iff {start : Editor} (h : Started start) (messages : List Message) :
    (start.run messages).required ↔ Demanded start messages := by
  have unmarked : start.required = false := by
    obtain ⟨_, _, _, _, rfl⟩ := h.eq_restore
    rfl
  constructor
  · intro marked
    have managed : start.settings.manageRequired := by
      by_contra unmanaged
      have never : (start.run messages).required = false :=
        required_unmanaged (Bool.eq_false_iff.mpr unmanaged) unmarked
      rw [never] at marked
      cases marked
    refine ⟨managed, ?_⟩
    rcases last_submission messages with quiet | ⟨before, after, rfl, quiet⟩
    · rw [required_run quiet, unmarked] at marked
      cases marked
    · refine ⟨before, after, rfl, quiet, ?_⟩
      rw [required_submission quiet, if_pos managed] at marked
      simpa using marked
  · rintro ⟨managed, before, after, rfl, quiet, none⟩
    rw [required_submission quiet, if_pos managed, none]
    rfl

/-- What is restored compares with a fresh editor in everything but the mark, and in the mark just if
the last submission of the run did not set it. -/
theorem restores_run_iff {start : Editor} (h : Started start) (messages : List Message) :
    (start.run messages).Restores SameButMark ∧
      ((start.run messages).Restores (· = ·) ↔ ¬ Demanded start messages) := by
  have wellFormed := h.wellFormed.run messages
  refine ⟨wellFormed.restores_of fun _ => rfl, ?_⟩
  rw [wellFormed.restores_iff, ← required_run_iff h messages, Bool.not_eq_true]

/-- An empty editor that marks its input was submitted and reset: the mark is still there. -/
theorem restores_run_submitted :
    Started (new { manageRequired := true } .filter) ∧
      ¬ ((new { manageRequired := true } .filter).run [.submit]).Restores (· = ·) := by
  have started : Started (new { manageRequired := true } .filter) := .new _ _
  refine ⟨started, fun restores => ?_⟩
  exact (restores_run_iff started [.submit]).2.mp restores ⟨rfl, [], [], rfl, List.not_mem_nil, rfl⟩

end FilterEditor.Editor
