import FilterEditor.Proofs.Layering
import FilterEditor.Proofs.Resolving

/-!
# Overriding a binding

A user who binds a key under the conditions that it is already bound under means the new binding to count
in place of the old one. Guards count together, so where they hold neither their order nor repetitions
matter. Layers compare guards as they are written, though: only a binding with the same list of guards
is replaced, and where the lists differ the new binding is added behind the old one, which is then the
first that counts. `override_wins_iff` says for which bindings the user's action comes through.
-/

namespace FilterEditor

/-- The conditions under which a binding counts. -/
def Binding.conditions (b : Binding) : List Guard := b.guards.getD []

namespace Keymap

variable {base bindings : List Binding} {b u : Binding} {k : Keystroke} {context : KeyContext}

/-- Where its conditions hold, a binding fires just if it is guarded. -/
lemma firesIn_of_conditions (hold : ∀ guard ∈ b.conditions, guard.holds context) :
    b.firesIn context = b.guards.isSome := by
  unfold Binding.conditions at hold
  unfold Binding.firesIn
  cases eq : b.guards with
  | none => rfl
  | some guards =>
    rw [eq] at hold
    exact List.all_eq_true.mpr hold

lemma filter_on_cons :
    (b :: bindings).filter (·.keystroke = k) =
      if b.keystroke = k then b :: bindings.filter (·.keystroke = k)
      else bindings.filter (·.keystroke = k) := by
  rw [List.filter_cons]
  exact if_congr decide_eq_true_iff rfl rfl

/-- Bindings on other keystrokes do not matter to where a binding goes. -/
lemma filter_replaceOrAppend :
    (replaceOrAppend b bindings).filter (·.keystroke = b.keystroke) =
      replaceOrAppend b (bindings.filter (·.keystroke = b.keystroke)) := by
  induction bindings with
  | nil => exact filter_on_cons.trans (if_pos rfl)
  | cons x rest ih =>
    rw [replaceOrAppend_cons, filter_on_cons]
    by_cases on : x.keystroke = b.keystroke
    · rw [if_pos on, replaceOrAppend_cons]
      split
      · rw [filter_on_cons, if_pos rfl]
      · rw [filter_on_cons, if_pos on, ih]
    · have other : x.trigger ≠ b.trigger := fun same => on (congrArg Prod.fst same)
      rw [if_neg on, if_neg other, filter_on_cons, if_neg on, ih]

/-- Laid over the only binding on its keystroke, a binding replaces it or stands behind it. -/
lemma candidates_override (only : base.filter (·.keystroke = k) = [b]) (on : u.keystroke = k)
    (bound : u.action ≠ .unbound) :
    (ofBindings (merge base [u])).candidates k = if u.guards = b.guards then [u] else [b, u] := by
  subst on
  have mem : b ∈ base.filter (·.keystroke = u.keystroke) := by
    rw [only]
    exact List.mem_cons_self
  have on : b.keystroke = u.keystroke := of_decide_eq_true (List.mem_filter.mp mem).2
  have laid : merge base [u] = replaceOrAppend u base := if_neg bound
  have same : b.trigger = u.trigger ↔ u.guards = b.guards := by
    rw [Binding.trigger, Binding.trigger, Prod.mk.injEq, on, eq_comm (a := b.guards)]
    exact and_iff_right rfl
  rw [candidates_ofBindings, laid, filter_replaceOrAppend, only, replaceOrAppend_cons,
    if_congr same rfl rfl]
  rfl

/-- Under the conditions of both, the user's action comes through if the guards are written the same way or
the given binding has none; else the given binding is the first that counts. -/
lemma action?_override (only : base.filter (·.keystroke = k) = [b]) (on : u.keystroke = k)
    (bound : u.action ≠ .unbound) (same : ∀ guard, guard ∈ u.conditions ↔ guard ∈ b.conditions)
    (hold : ∀ guard ∈ b.conditions, guard.holds context) :
    (ofBindings (merge base [u])).action? k context =
      some (if u.guards = b.guards ∨ b.guards = none then u.action else b.action) := by
  have fires := firesIn_of_conditions hold
  have fires' : u.firesIn context = u.guards.isSome :=
    firesIn_of_conditions fun guard mem => hold guard ((same guard).mp mem)
  rw [action?, candidates_override only on bound]
  by_cases written : u.guards = b.guards
  · -- The given binding is gone; the user's is guarded or the first without guards.
    rw [if_pos written, if_pos (.inl written)]
    cases guards : u.guards <;> simp [fires', guards, unguarded?]
  · rw [if_neg written]
    cases guards : b.guards with
    | some given =>
      have first : [b, u].find? (·.firesIn context) = some b :=
        List.find?_cons_of_pos (by rw [fires, guards]; rfl)
      have neither : ¬ (u.guards = some given ∨ some given = none) := by
        rintro (same | bare)
        · exact written (same.trans guards.symm)
        · cases bare
      rw [first, if_neg neither]
    | none =>
      have guarded : u.guards.isSome := Option.isSome_iff_ne_none.mpr (guards ▸ written)
      have first : [b, u].find? (·.firesIn context) = some u := by
        have silent : ¬ b.firesIn context := by
          rw [fires, guards]
          exact Bool.false_ne_true
        rw [List.find?_cons_of_neg silent, List.find?_singleton, fires', if_pos guarded]
      rw [first, if_pos (.inr rfl)]

/-- A user binds a keystroke again that has one binding, under the same conditions in whatever order and
number. Where they hold, the user's action comes through just if the guards are written the same way, the
given binding has none, or the actions are the same anyhow; else the keystroke keeps its given action. -/
theorem override_wins_iff {base : List Binding} {k : Keystroke} {b u : Binding}
    {context : KeyContext} (only : base.filter (·.keystroke = k) = [b]) (on : u.keystroke = k)
    (bound : u.action ≠ .unbound) (same : ∀ guard, guard ∈ u.conditions ↔ guard ∈ b.conditions)
    (hold : ∀ guard ∈ b.conditions, guard.holds context) :
    let resolved := (ofBindings (merge base [u])).action? k context
    (resolved = some u.action ↔
        u.guards = b.guards ∨ b.guards = none ∨ u.action = b.action) ∧
      (u.guards ≠ b.guards → b.guards ≠ none → resolved = some b.action) := by
  intro resolved
  have eq : resolved = some (if u.guards = b.guards ∨ b.guards = none then u.action else b.action) :=
    action?_override only on bound same hold
  constructor
  · by_cases replaced : u.guards = b.guards ∨ b.guards = none
    · rw [eq, if_pos replaced]
      exact iff_of_true rfl (replaced.imp_right .inl)
    · rw [eq, if_neg replaced, Option.some.injEq]
      constructor
      · intro same
        exact .inr (.inr same.symm)
      · rintro (written | bare | same)
        · exact (replaced (.inl written)).elim
        · exact (replaced (.inr bare)).elim
        · exact same.symm
  · intro other given
    rw [eq, if_neg (not_or.mpr ⟨other, given⟩)]

/-- Tab is bound once by default. A binding with the same guards replaces that one, and a binding that
repeats one of them never counts. -/
theorem override_wins_iff_tab :
    let b := bindKey .tab .commitPreview (some [.trailingInput, .hasPreview])
    let u := bindKey .tab .focusForward (some [.trailingInput, .hasPreview])
    let v := bindKey .tab .focusForward (some [.trailingInput, .hasPreview, .trailingInput])
    let context : KeyContext := ⟨true, true, true, false⟩
    defaults.filter (·.keystroke = b.keystroke) = [b] ∧
      (∀ guard, guard ∈ v.conditions ↔ guard ∈ b.conditions) ∧
      (∀ guard ∈ b.conditions, guard.holds context) ∧
      (ofBindings (merge defaults [u])).action? b.keystroke context = some u.action ∧
      (ofBindings (merge defaults [v])).action? b.keystroke context = some b.action := by
  intro b u v context
  have only : defaults.filter (·.keystroke = b.keystroke) = [b] := by decide
  have same : ∀ guard, guard ∈ v.conditions ↔ guard ∈ b.conditions := by
    intro guard
    cases guard <;> decide
  have hold : ∀ guard ∈ b.conditions, guard.holds context := by decide
  have wins := override_wins_iff only (u := u) rfl (by decide) (fun _ => Iff.rfl) hold
  have loses := override_wins_iff only (u := v) rfl (by decide) same hold
  exact ⟨only, same, hold, wins.1.mpr (.inl rfl), loses.2 (by decide) (by decide)⟩

/-- With the guards of tab the other way round, the user's binding never counts. -/
theorem override_loses_reordered :
    let b := bindKey .tab .commitPreview (some [.trailingInput, .hasPreview])
    let u := bindKey .tab .focusForward (some [.hasPreview, .trailingInput])
    let context : KeyContext := ⟨true, true, true, false⟩
    defaults.filter (·.keystroke = u.keystroke) = [b] ∧ u.action ≠ .unbound ∧
      (∀ guard, guard ∈ u.conditions ↔ guard ∈ b.conditions) ∧
      (∀ guard ∈ b.conditions, guard.holds context) ∧
      (ofBindings (merge defaults [u])).action? u.keystroke context ≠ some u.action := by
  intro b u context
  refine ⟨by decide, by decide, fun guard => ?_, by decide, by decide⟩
  cases guard <;> decide

end Keymap
end FilterEditor
