import FilterEditor.Keymap.Defaults
import FilterEditor.Keymap.Merge
import Mathlib.Data.List.Find
import Mathlib.Data.List.Induction
import Mathlib.Data.List.Nodup

/-!
# Layers of bindings

What a user's bindings come to when they are laid over given ones, one after the other. Bindings are told
apart by their trigger. For each trigger the last binding of the user counts that no later one takes away;
where there is none, the given binding counts, unless the user takes its keystroke away anywhere
(`merge_eq_layered`). Of the given bindings those that stay keep their places.

The induction is on the user's bindings from the last one, since the last one is laid over what the others
have come to.
-/

namespace FilterEditor

/-- What tells bindings apart: the keystroke and the guards as they are written. -/
def Binding.trigger (b : Binding) : Keystroke × Option (List Guard) := (b.keystroke, b.guards)

/-- Whether a binding takes those of a keystroke away. -/
def Binding.frees (k : Keystroke) (b : Binding) : Bool := b.action = .unbound ∧ b.keystroke = k

namespace Keymap

/-- Bindings that take nothing away and have triggers of their own. -/
structure Tidy (bindings : List Binding) : Prop where
  bound : ∀ b ∈ bindings, b.action ≠ .unbound
  distinct : (bindings.map (·.trigger)).Nodup

/-- The binding with a trigger. -/
def bindingOf? (trigger : Keystroke × Option (List Guard)) (bindings : List Binding) :
    Option Binding :=
  bindings.find? (·.trigger = trigger)

/-- Whether a user takes the bindings of a keystroke away. -/
def freed (k : Keystroke) (user : List Binding) : Bool := user.any (·.frees k)

/-- The bindings of a user behind the last one that takes those of a keystroke away, the last one first. -/
def sinceFreed (k : Keystroke) (user : List Binding) : List Binding :=
  user.reverse.takeWhile fun b => !b.frees k

/-- The last binding with a trigger that the user has not taken away again. -/
def latest? (trigger : Keystroke × Option (List Guard)) (user : List Binding) : Option Binding :=
  bindingOf? trigger (sinceFreed trigger.1 user)

/-- A given binding, or what a user has bound to its trigger. -/
def refreshed (user : List Binding) (b : Binding) : Binding := (latest? b.trigger user).getD b

/-- The given bindings that a user does not take away, each replaced by what the user has bound to its
trigger. -/
def kept (base user : List Binding) : List Binding :=
  (base.filter fun b => !freed b.keystroke user).map (refreshed user)

variable {base user bindings more : List Binding} {b x : Binding} {k : Keystroke}
  {trigger : Keystroke × Option (List Guard)}

/-! ## One binding -/

lemma frees_iff : b.frees k ↔ b.action = .unbound ∧ b.keystroke = k := by
  rw [Binding.frees, decide_eq_true_iff]

lemma frees_of_bound (bound : b.action ≠ .unbound) : b.frees k = false := by
  rw [Bool.eq_false_iff, ne_eq, frees_iff]
  exact fun frees => bound frees.1

lemma keystroke_of_trigger (same : b.trigger = trigger) : b.keystroke = trigger.1 := by
  cases same
  rfl

lemma replaceOrAppend_cons :
    replaceOrAppend b (x :: bindings) =
      if x.trigger = b.trigger then b :: bindings else x :: replaceOrAppend b bindings := by
  have same : (x.keystroke = b.keystroke ∧ x.guards = b.guards) ↔ x.trigger = b.trigger := by
    rw [Binding.trigger, Binding.trigger, Prod.mk.injEq]
  rw [replaceOrAppend]
  exact if_congr same rfl rfl

lemma mem_replaceOrAppend (mem : x ∈ replaceOrAppend b bindings) : x = b ∨ x ∈ bindings := by
  induction bindings with
  | nil => exact .inl (List.mem_singleton.mp mem)
  | cons y rest ih =>
    rw [replaceOrAppend_cons] at mem
    split at mem
    · rcases List.mem_cons.mp mem with rfl | mem
      · exact .inl rfl
      · exact .inr (List.mem_cons_of_mem _ mem)
    · rcases List.mem_cons.mp mem with rfl | mem
      · exact .inr List.mem_cons_self
      · exact (ih mem).imp_right (List.mem_cons_of_mem _)

/-- A trigger that is there stays in its place, a new one comes last. -/
lemma triggers_replaceOrAppend :
    (replaceOrAppend b bindings).map (·.trigger) =
      if b.trigger ∈ bindings.map (·.trigger) then bindings.map (·.trigger)
      else bindings.map (·.trigger) ++ [b.trigger] := by
  induction bindings with
  | nil => rfl
  | cons x rest ih =>
    rw [replaceOrAppend_cons, List.map_cons]
    by_cases here : x.trigger = b.trigger
    · rw [if_pos here, if_pos (List.mem_cons.mpr (.inl here.symm)), List.map_cons, here]
    · have there : b.trigger ∈ x.trigger :: rest.map (·.trigger) ↔
          b.trigger ∈ rest.map (·.trigger) := by
        rw [List.mem_cons, or_iff_right (Ne.symm here)]
      rw [if_neg here, List.map_cons, ih, if_congr there rfl rfl]
      split <;> rfl

lemma bindingOf?_cons :
    bindingOf? trigger (x :: bindings) =
      if x.trigger = trigger then some x else bindingOf? trigger bindings := by
  rw [bindingOf?, List.find?_cons]
  by_cases here : x.trigger = trigger
  · rw [if_pos here, decide_eq_true here]
  · rw [if_neg here, decide_eq_false here]
    rfl

lemma bindingOf?_replaceOrAppend :
    bindingOf? trigger (replaceOrAppend b bindings) =
      if b.trigger = trigger then some b else bindingOf? trigger bindings := by
  induction bindings with
  | nil => exact bindingOf?_cons
  | cons x rest ih =>
    rw [replaceOrAppend_cons]
    by_cases here : x.trigger = b.trigger
    · rw [if_pos here, bindingOf?_cons, bindingOf?_cons, here]
      split <;> rfl
    · rw [if_neg here, bindingOf?_cons, bindingOf?_cons, ih]
      by_cases found : x.trigger = trigger
      · rw [if_pos found, if_pos found, if_neg fun same => here (found.trans same.symm)]
      · rw [if_neg found, if_neg found]

/-- Of bindings in front that have triggers of their own, only the one with the same trigger is
replaced. -/
lemma replaceOrAppend_append (distinct : (bindings.map (·.trigger)).Nodup) :
    ∃ rest, replaceOrAppend b (bindings ++ more) =
      bindings.map (fun x => if x.trigger = b.trigger then b else x) ++ rest := by
  induction bindings with
  | nil => exact ⟨_, rfl⟩
  | cons x bindings ih =>
    rw [List.map_cons, List.nodup_cons] at distinct
    rw [List.cons_append, replaceOrAppend_cons, List.map_cons]
    by_cases here : x.trigger = b.trigger
    · have others : bindings.map (fun x => if x.trigger = b.trigger then b else x) =
          bindings.map id := by
        refine List.map_congr_left fun y mem => if_neg fun same => ?_
        exact distinct.1 (List.mem_map.mpr ⟨y, mem, same.trans here.symm⟩)
      rw [if_pos here, if_pos here, others, List.map_id]
      exact ⟨more, rfl⟩
    · obtain ⟨rest, eq⟩ := ih distinct.2
      rw [if_neg here, if_neg here, eq]
      exact ⟨rest, rfl⟩

/-! ## The last binding of a user -/

lemma merge_concat : merge base (user ++ [b]) = overlay (merge base user) b := by
  rw [merge, List.foldl_append]
  rfl

lemma freed_concat : freed k (user ++ [b]) = (freed k user || b.frees k) := by
  rw [freed, List.any_append, List.any_cons, List.any_nil, Bool.or_false]
  rfl

lemma latest?_concat :
    latest? trigger (user ++ [b]) =
      if b.frees trigger.1 then none
      else if b.trigger = trigger then some b else latest? trigger user := by
  rw [latest?, sinceFreed, List.reverse_append, List.reverse_singleton, List.singleton_append,
    List.takeWhile_cons]
  by_cases frees : b.frees trigger.1
  · rw [if_pos frees, frees]
    rfl
  · rw [if_neg frees, Bool.eq_false_iff.mpr frees]
    exact bindingOf?_cons

lemma bindingOf?_overlay :
    bindingOf? trigger (overlay bindings b) =
      if b.frees trigger.1 then none
      else if b.trigger = trigger then some b else bindingOf? trigger bindings := by
  unfold overlay
  by_cases unbound : b.action = .unbound
  · rw [if_pos unbound, bindingOf?, List.find?_filter]
    by_cases on : b.keystroke = trigger.1
    · rw [if_pos (frees_iff.mpr ⟨unbound, on⟩), List.find?_eq_none]
      intro x _ found
      rw [decide_eq_true_iff, decide_eq_true_iff, decide_eq_true_iff] at found
      exact found.1 ((keystroke_of_trigger found.2).trans on.symm)
    · have spares : ¬ b.frees trigger.1 := fun frees => on (frees_iff.mp frees).2
      rw [if_neg spares, if_neg fun same => on (keystroke_of_trigger same)]
      refine List.find?_congr fun x _ => ?_
      have other : x.trigger = trigger → x.keystroke ≠ b.keystroke := fun same same' =>
        on (same'.symm.trans (keystroke_of_trigger same))
      rw [decide_eq_decide, decide_eq_true_iff, decide_eq_true_iff]
      exact and_iff_right_of_imp other
  · rw [if_neg unbound, frees_of_bound unbound, bindingOf?_replaceOrAppend]
    rfl

lemma Tidy.overlay (h : Tidy bindings) : Tidy (overlay bindings b) := by
  unfold Keymap.overlay
  split
  · exact ⟨fun x mem => h.bound x (List.mem_filter.mp mem).1,
      (List.filter_sublist.map _).nodup h.distinct⟩
  · rename_i bound
    constructor
    · intro x mem
      rcases mem_replaceOrAppend mem with rfl | mem
      · exact bound
      · exact h.bound x mem
    · rw [triggers_replaceOrAppend]
      split
      · exact h.distinct
      · rename_i new
        rw [← List.concat_eq_append]
        exact List.Nodup.concat new h.distinct

/-- For each trigger the user's last binding counts that is not taken away again, else the given one, if the
user never takes its keystroke away. -/
lemma bindingOf?_merge :
    bindingOf? trigger (merge base user) =
      (latest? trigger user).or (if freed trigger.1 user then none else bindingOf? trigger base) := by
  induction user using List.reverseRecOn with
  | nil => rfl
  | append_singleton user b ih =>
    rw [merge_concat, bindingOf?_overlay, latest?_concat, freed_concat, ih]
    by_cases frees : b.frees trigger.1
    · rw [if_pos frees, if_pos frees, frees, Bool.or_true]
      rfl
    · rw [if_neg frees, if_neg frees, Bool.eq_false_iff.mpr frees, Bool.or_false]
      split <;> rfl

lemma Tidy.merge (h : Tidy base) : Tidy (merge base user) := by
  induction user using List.reverseRecOn with
  | nil => exact h
  | append_singleton user b ih =>
    rw [merge_concat]
    exact ih.overlay

/-! ## Places -/

lemma trigger_of_latest? (found : latest? trigger user = some b) : b.trigger = trigger := by
  have same := List.find?_some found
  exact of_decide_eq_true same

@[simp]
lemma trigger_refreshed : (refreshed user b).trigger = b.trigger := by
  unfold refreshed
  cases found : latest? b.trigger user with
  | none => rfl
  | some x => exact trigger_of_latest? found

@[simp]
lemma keystroke_refreshed : (refreshed user b).keystroke = b.keystroke :=
  congrArg Prod.fst trigger_refreshed

/-- One more binding of the user on its keystroke replaces a binding or leaves it as it is. -/
lemma refreshed_concat (spares : ¬ b.frees x.keystroke) :
    refreshed (user ++ [b]) x =
      if (refreshed user x).trigger = b.trigger then b else refreshed user x := by
  have spares : ¬ b.frees x.trigger.1 := spares
  rw [trigger_refreshed, refreshed, latest?_concat, if_neg spares]
  by_cases same : b.trigger = x.trigger
  · rw [if_pos same, if_pos same.symm]
    rfl
  · rw [if_neg same, if_neg (Ne.symm same)]
    rfl

lemma triggers_kept :
    (kept base user).map (·.trigger) =
      (base.filter fun b => !freed b.keystroke user).map (·.trigger) := by
  unfold kept
  rw [List.map_map]
  exact List.map_congr_left fun _ _ => trigger_refreshed

/-- Of what is kept, a binding that takes its keystroke away takes the bindings on it. -/
lemma kept_concat_unbound (unbound : b.action = .unbound) :
    kept base (user ++ [b]) = (kept base user).filter (·.keystroke ≠ b.keystroke) := by
  have frees (x : Binding) : b.frees x.keystroke = decide (x.keystroke = b.keystroke) := by
    rw [Binding.frees, decide_eq_decide, @eq_comm _ x.keystroke]
    exact and_iff_right unbound
  have remaining (x : Binding) : (!freed x.keystroke (user ++ [b])) =
      (decide ((refreshed user x).keystroke ≠ b.keystroke) && !freed x.keystroke user) := by
    rw [freed_concat, Bool.not_or, frees, keystroke_refreshed, Bool.and_comm, decide_not]
  unfold kept
  rw [List.filter_map, List.filter_filter, List.filter_congr fun x _ => remaining x]
  refine List.map_congr_left fun x mem => ?_
  -- What stays is on another keystroke, so the binding says nothing about it.
  have other : x.keystroke ≠ b.keystroke := by
    have stays := (List.mem_filter.mp mem).2
    rw [keystroke_refreshed, Bool.and_eq_true, decide_eq_true_iff] at stays
    exact stays.1
  have spares : ¬ b.frees x.keystroke := fun frees => other (frees_iff.mp frees).2.symm
  rw [refreshed_concat spares, if_neg]
  rw [trigger_refreshed]
  exact fun same => other (congrArg Prod.fst same)

/-- Of what is kept, any other binding replaces the one with its trigger, if there is one. -/
lemma kept_concat_bound (bound : b.action ≠ .unbound) :
    kept base (user ++ [b]) =
      (kept base user).map fun x => if x.trigger = b.trigger then b else x := by
  have remaining (x : Binding) : freed x.keystroke (user ++ [b]) = freed x.keystroke user := by
    rw [freed_concat, frees_of_bound bound, Bool.or_false]
  have spares (x : Binding) : ¬ b.frees x.keystroke := by
    rw [frees_of_bound bound]
    exact Bool.false_ne_true
  unfold kept
  simp only [remaining, List.map_map]
  exact List.map_congr_left fun x _ => refreshed_concat (spares x)

/-- The given bindings that a user does not take away stand in front, in their order. -/
lemma merge_eq_kept_append (tidy : Tidy base) : ∃ added, merge base user = kept base user ++ added := by
  induction user using List.reverseRecOn with
  | nil =>
    have same : refreshed [] = id := rfl
    have all : kept base [] = base := by simp [kept, freed, same]
    exact ⟨[], by rw [all, List.append_nil]; rfl⟩
  | append_singleton user b ih =>
    obtain ⟨added, eq⟩ := ih
    have distinct : ((kept base user).map (·.trigger)).Nodup := by
      rw [triggers_kept]
      exact (List.filter_sublist.map _).nodup tidy.distinct
    rw [merge_concat, eq]
    by_cases unbound : b.action = .unbound
    · rw [kept_concat_unbound unbound, overlay, if_pos unbound, List.filter_append]
      exact ⟨_, rfl⟩
    · rw [kept_concat_bound unbound, overlay, if_neg unbound]
      exact replaceOrAppend_append distinct

/-- Laid over bindings that take nothing away and have triggers of their own, the bindings of a user come to
such bindings again. For each trigger the user's last binding counts that is not taken away again, else
the given one, if the user never takes its keystroke away, else nothing; and the given bindings that the
user does not take away keep their places in front of all others, replaced by what the user has bound
to their triggers. -/
theorem merge_eq_layered {base : List Binding} (user : List Binding) (tidy : Tidy base) :
    Tidy (merge base user) ∧
      (∀ trigger, bindingOf? trigger (merge base user) =
        (latest? trigger user).or
          (if freed trigger.1 user then none else bindingOf? trigger base)) ∧
      ∃ added, merge base user = kept base user ++ added :=
  ⟨tidy.merge, fun _ => bindingOf?_merge, merge_eq_kept_append tidy⟩

lemma tidy_defaults : Tidy defaults where
  bound := by decide
  distinct := by decide

/-- A key that is taken away and bound again, and one that is bound twice. -/
theorem merge_eq_layered_defaults :
    let user := [bindKey .space .submit, bindKey .enter .unbound,
      bindKey .enter .submit (some [.hasTerms]), bindKey .space .reset,
      bindKey .enter .saveTerm (some [.hasTerms])]
    let bindings := merge defaults user
    Tidy defaults ∧ Tidy bindings ∧
      bindingOf? (⟨.named .space, {}⟩, none) bindings = some (bindKey .space .reset) ∧
      bindingOf? (⟨.named .enter, {}⟩, some [.hasTerms]) bindings =
        some (bindKey .enter .saveTerm (some [.hasTerms])) ∧
      bindingOf? (⟨.named .enter, {}⟩, some [.termSlot]) bindings = none ∧
      bindingOf? (⟨.named .home, {}⟩, none) bindings = some (bindKey .home .moveCursorStart) ∧
      ∃ added, bindings = kept defaults user ++ added := by
  intro user bindings
  obtain ⟨tidy, found, places⟩ := merge_eq_layered user tidy_defaults
  exact ⟨tidy_defaults, tidy, (found _).trans (by decide), (found _).trans (by decide),
    (found _).trans (by decide), (found _).trans (by decide), places⟩

end Keymap
end FilterEditor
