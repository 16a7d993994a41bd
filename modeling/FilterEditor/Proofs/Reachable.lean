import FilterEditor.Proofs.Flatten
import FilterEditor.Proofs.Step

/-!
# Reachable editors

An editor starts empty, with terms that its grammar accepts or with a filter, and goes on by messages.
A property of the start that every step preserves holds of every reachable editor.
-/

namespace FilterEditor

/-- The flattest command of effects stands for these effects. -/
lemma Command.effects_ofEffects (effects : List Effect) :
    (Command.ofEffects effects).effects = effects := by
  have all : ∀ effects : List Effect, Command.allEffects (effects.map .one) = effects := by
    intro effects
    induction effects with
    | nil => rfl
    | cons effect rest ih =>
      rw [List.map_cons, Command.allEffects, ih]
      rfl
  match effects with
  | [] => rfl
  | [_] => rfl
  | first :: second :: rest => exact all (first :: second :: rest)

namespace Editor

/-- An editor before its first message. -/
inductive Started : Editor → Prop
  /-- An empty editor. -/
  | new (settings : Settings) (grammar : Grammar) : Started (new settings grammar)
  /-- An editor with committed terms. -/
  | ofTerms {settings : Settings} {grammar : Grammar} {terms : List Term} {e : Editor}
      (accepted : ofTerms settings grammar terms = .ok e) : Started e
  /-- An editor for a filter. -/
  | ofTree (settings : Settings) (tree : Tree) : Started (ofTree settings tree)

/-- An editor after messages. -/
def Reachable (e : Editor) : Prop := ∃ start messages, Started start ∧ start.run messages = e

lemma checkTerms_eq_ok_iff {grammar : Grammar} {terms : List Term} :
    checkTerms grammar terms = .ok () ↔ (grammar.requiresKinds → ∀ t ∈ terms, t.kind.isSome) := by
  unfold checkTerms
  split
  · rename_i requires
    split
    · rename_i index found
      obtain ⟨lt, none, _⟩ := List.findIdx?_eq_some_iff_getElem.mp found
      refine ⟨nofun, fun h => ?_⟩
      have some := h requires _ (List.getElem_mem lt)
      rw [Option.isNone_iff_eq_none.mp none] at some
      cases some
    · rename_i none
      refine ⟨fun _ _ t ht => ?_, fun _ => rfl⟩
      have := List.findIdx?_eq_none_iff.mp none t ht
      simpa [Option.isNone_iff_eq_none, Option.isSome_iff_ne_none] using this
  · rename_i plain
    exact ⟨fun _ requires => (plain requires).elim, fun _ => rfl⟩

/-- Every start restores terms that the grammar accepts. -/
lemma Started.eq_restore {e : Editor} (h : Started e) :
    ∃ settings grammar terms, checkTerms grammar terms = .ok () ∧
      e = (Editor.new settings grammar).restore terms := by
  cases h with
  | new settings grammar =>
    exact ⟨settings, grammar, [], checkTerms_eq_ok_iff.mpr nofun, rfl⟩
  | @ofTerms settings grammar terms _ accepted =>
    refine ⟨settings, grammar, terms, ?_⟩
    unfold Editor.ofTerms at accepted
    cases check : checkTerms grammar terms with
    | error _ =>
      simp only [bind, Except.bind, check] at accepted
      cases accepted
    | ok =>
      simp only [bind, Except.bind, check] at accepted
      cases accepted
      exact ⟨rfl, rfl⟩
  | ofTree settings tree =>
    refine ⟨settings, .filter, tree.terms, checkTerms_eq_ok_iff.mpr fun _ => ?_, rfl⟩
    exact Tree.forall_mem_terms (Tree.kind_pervasive .compact) tree

lemma run_append (e : Editor) (first rest : List Message) :
    e.run (first ++ rest) = (e.run first).run rest :=
  List.foldl_append

lemma Reachable.run {e : Editor} (h : Reachable e) (messages : List Message) :
    Reachable (e.run messages) := by
  obtain ⟨start, before, started, rfl⟩ := h
  exact ⟨start, before ++ messages, started, run_append start before messages⟩

/-- A property that every step preserves survives every message. -/
lemma invariant_respond {P : Editor → Prop}
    (step : ∀ scope e placed c, Step scope e placed c → P e → P c.editor) {e : Editor} (he : P e)
    (message : Message) : P (e.respond message).editor :=
  (settled_respond e message).trace.invariant (step message.scope) he

lemma invariant_run {P : Editor → Prop}
    (step : ∀ scope e placed c, Step scope e placed c → P e → P c.editor) {e : Editor} (he : P e)
    (messages : List Message) : P (e.run messages) := by
  induction messages generalizing e with
  | nil => exact he
  | cons message rest ih => exact ih (invariant_respond step he message)

/-- Where a message breaks a property just if it is a bad one, the property holds all along a run just
if no message of the run is bad. -/
lemma prefixes_iff {I P : Editor → Prop} {Bad : Editor → Message → Prop} {messages : List Message}
    (step : ∀ message ∈ messages, ∀ e, I e → P e →
      I (e.respond message).editor ∧ (P (e.respond message).editor ↔ ¬ Bad e message))
    {e : Editor} (sound : I e) (he : P e) :
    (∀ n, P (e.run (messages.take n))) ↔
      ∀ n message, messages[n]? = some message → ¬ Bad (e.run (messages.take n)) message := by
  induction messages generalizing e with
  | nil =>
    refine ⟨fun _ n message h => ?_, fun _ n => ?_⟩
    · cases h
    · rw [List.take_nil]
      exact he
  | cons first rest ih =>
    -- The property has to hold after the first message: in one direction that is the prefix of length
    -- one, in the other the first message is not bad.
    obtain ⟨sound', kept⟩ := step first List.mem_cons_self e sound he
    have ih := ih (fun message hm => step message (List.mem_cons_of_mem _ hm)) sound'
    constructor
    · intro h n message hm
      have he' : P (e.respond first).editor := h 1
      cases n with
      | zero =>
        cases hm
        exact kept.mp he'
      | succ n => exact (ih he').mp (fun n => h (n + 1)) n message hm
    · intro h n
      have he' : P (e.respond first).editor := kept.mpr (h 0 first rfl)
      cases n with
      | zero => exact he
      | succ n => exact (ih he').mpr (fun n message hm => h (n + 1) message hm) n

end Editor
end FilterEditor
