import FilterEditor.Keymap.Basic
import Mathlib.Data.List.Basic

/-!
# Resolving keystrokes

A keymap finds the bindings of a keystroke through an index that grows with each binding. `Resolves` says
without an index what a keystroke comes to: the first binding on it whose guards all hold, else the first
one without guards, else nothing. The index is `Indexed` from the start and with every binding added: it
lists each binding of a keystroke once and in order. So looking a keystroke up comes to the same as going
through all bindings (`resolves_iff`).
-/

namespace FilterEditor

/-- The first member of a list with a property. -/
def FirstWith {α : Type} (P : α → Prop) (all : List α) (x : α) : Prop :=
  ∃ before behind, all = before ++ x :: behind ∧ P x ∧ ∀ y ∈ before, ¬ P y

lemma find?_eq_some_iff_firstWith {α : Type} {P : α → Prop} {p : α → Bool} {all : List α} {x : α}
    (same : ∀ x, p x ↔ P x) : all.find? p = some x ↔ FirstWith P all x := by
  simp only [List.find?_eq_some_iff_append, FirstWith, ← same, Bool.not_eq_true', Bool.not_eq_true]
  tauto

/-- A guarded binding on a keystroke whose guards all hold. -/
structure Binding.Fires (k : Keystroke) (context : KeyContext) (b : Binding) : Prop where
  keystroke : b.keystroke = k
  guarded : ∃ guards, b.guards = some guards ∧ ∀ guard ∈ guards, guard.holds context

/-- A binding on a keystroke without guards. -/
structure Binding.Unguarded (k : Keystroke) (b : Binding) : Prop where
  keystroke : b.keystroke = k
  unguarded : b.guards = none

namespace Keymap

/-- What bindings make of a keystroke, found by going through all of them. -/
inductive Resolves (k : Keystroke) (context : KeyContext) (bindings : List Binding) :
    Option Action → Prop
  | guarded {b : Binding} (first : FirstWith (·.Fires k context) bindings b) :
      Resolves k context bindings (some b.action)
  | unguarded {b : Binding} (silent : ∀ b ∈ bindings, ¬ b.Fires k context)
      (first : FirstWith (·.Unguarded k) bindings b) : Resolves k context bindings (some b.action)
  | unmatched (silent : ∀ b ∈ bindings, ¬ b.Fires k context)
      (guarded : ∀ b ∈ bindings, ¬ b.Unguarded k) : Resolves k context bindings none

variable {k k' : Keystroke} {context : KeyContext} {bindings : List Binding} {b : Binding}
  {m : Keymap} {result : Option Action} {position : Nat} {index : KeyIndex}

/-! ## The index -/

lemma positions_cons {key : Keystroke} {positions : List Nat} :
    KeyIndex.positions k ((key, positions) :: index) =
      if k = key then positions else index.positions k := by
  unfold KeyIndex.positions
  rw [List.lookup_cons]
  by_cases here : k = key
  · rw [if_pos here, beq_iff_eq.mpr here]
    rfl
  · rw [if_neg here, beq_eq_false_iff_ne.mpr here]

lemma positions_insert :
    (index.insert k position).positions k' =
      if k' = k then index.positions k' ++ [position] else index.positions k' := by
  induction index with
  | nil =>
    rw [KeyIndex.insert, positions_cons]
    rfl
  | cons entry rest ih =>
    obtain ⟨key, positions⟩ := entry
    unfold KeyIndex.insert
    by_cases here : key = k
    · subst here
      rw [if_pos rfl, positions_cons, positions_cons]
      split <;> rfl
    · rw [if_neg here, positions_cons, positions_cons, ih]
      by_cases found : k' = key
      · subst found
        rw [if_pos rfl, if_pos rfl, if_neg here]
      · rw [if_neg found, if_neg found]

/-- The index of a keymap leads to the bindings of each keystroke, each of them once and in order. -/
structure Indexed (m : Keymap) : Prop where
  within : ∀ k, ∀ position ∈ m.index.positions k, position < m.bindings.length
  listed : ∀ k, m.candidates k = m.bindings.filter (·.keystroke = k)

lemma indexed_empty : Indexed {} where
  within := nofun
  listed _ := rfl

/-- A binding that is added is listed behind the others on its keystroke. -/
lemma Indexed.add (h : Indexed m) (b : Binding) : Indexed (m.add b) where
  within k position mem := by
    show position < (m.bindings ++ [b]).length
    rw [List.length_append, List.length_singleton]
    rw [Keymap.add, positions_insert] at mem
    split at mem
    · rcases List.mem_append.mp mem with mem | mem
      · have lt := h.within k position mem
        omega
      · cases List.mem_singleton.mp mem
        omega
    · have lt := h.within k position mem
      omega
  listed k := by
    -- The positions that were listed still lead to the bindings that they led to.
    have kept : (m.index.positions k).filterMap ((m.bindings ++ [b])[·]?) = m.candidates k :=
      List.filterMap_congr fun position mem => List.getElem?_append_left (h.within k position mem)
    have added : (m.bindings ++ [b])[m.bindings.length]? = some b := List.getElem?_concat_length
    have split : (m.add b).bindings.filter (·.keystroke = k) =
        m.candidates k ++ [b].filter (·.keystroke = k) := by
      rw [h.listed, ← List.filter_append]
      rfl
    rw [split, candidates, Keymap.add, positions_insert]
    by_cases here : k = b.keystroke
    · have led : [m.bindings.length].filterMap ((m.bindings ++ [b])[·]?) = [b] :=
        List.filterMap_cons_some added
      rw [if_pos here, List.filterMap_append, kept, led]
      simp [here]
    · rw [if_neg here, kept]
      simp [Ne.symm here]

/-- Adding bindings one after the other keeps the index right. -/
lemma Indexed.foldl (h : Indexed m) (more : List Binding) :
    Indexed (more.foldl (fun m b => m.add b) m) ∧
      (more.foldl (fun m b => m.add b) m).bindings = m.bindings ++ more := by
  induction more generalizing m with
  | nil => exact ⟨h, (List.append_nil _).symm⟩
  | cons b more ih =>
    obtain ⟨indexed, bindings⟩ := ih (h.add b)
    refine ⟨indexed, bindings.trans ?_⟩
    exact List.append_assoc m.bindings [b] more

/-- Added to a keymap of bindings, bindings are found like those of the keymap. -/
lemma candidates_foldl (bindings more : List Binding) (k : Keystroke) :
    (more.foldl (fun m b => m.add b) (ofBindings bindings)).candidates k =
      (bindings ++ more).filter (·.keystroke = k) := by
  obtain ⟨indexed, held⟩ := indexed_empty.foldl (bindings ++ more)
  rw [List.foldl_append] at indexed held
  have listed := indexed.listed k
  rwa [held] at listed

lemma candidates_ofBindings (bindings : List Binding) (k : Keystroke) :
    (ofBindings bindings).candidates k = bindings.filter (·.keystroke = k) := by
  have listed := candidates_foldl bindings [] k
  rwa [List.append_nil] at listed

/-! ## The scan -/

lemma fires_iff : (b.keystroke = k ∧ b.firesIn context) ↔ b.Fires k context := by
  have guarded : b.firesIn context ↔
      ∃ guards, b.guards = some guards ∧ ∀ guard ∈ guards, guard.holds context := by
    rw [Binding.firesIn, Option.any_eq_true]
    simp only [List.all_eq_true]
  rw [guarded]
  exact ⟨fun ⟨on, holds⟩ => ⟨on, holds⟩, fun ⟨on, holds⟩ => ⟨on, holds⟩⟩

lemma unguarded_iff : (b.keystroke = k ∧ b.guards.isNone) ↔ b.Unguarded k := by
  rw [Option.isNone_iff_eq_none]
  exact ⟨fun ⟨on, bare⟩ => ⟨on, bare⟩, fun ⟨on, bare⟩ => ⟨on, bare⟩⟩

section

variable {P : Binding → Prop} {p : Binding → Bool} (same : ∀ b, (b.keystroke = k ∧ p b) ↔ P b)
include same

lemma find?_on_eq_some_iff :
    (bindings.filter (·.keystroke = k)).find? p = some b ↔ FirstWith P bindings b := by
  rw [List.find?_filter]
  exact find?_eq_some_iff_firstWith fun b => by
    rw [← same b, decide_eq_true_iff, decide_eq_true_iff]

lemma find?_on_eq_none_iff :
    (bindings.filter (·.keystroke = k)).find? p = none ↔ ∀ b ∈ bindings, ¬ P b := by
  rw [List.find?_eq_none]
  simp only [← same, List.mem_filter, decide_eq_true_iff]
  tauto

end

/-- Of the bindings on a keystroke, the first guarded one that counts, else the first one without guards. -/
lemma resolves_iff_scan :
    Resolves k context bindings result ↔
      (match (bindings.filter (·.keystroke = k)).find? (·.firesIn context) with
        | some b => some b.action
        | none => unguarded? (bindings.filter (·.keystroke = k))) = result := by
  unfold unguarded?
  constructor
  · intro resolves
    cases resolves with
    | guarded first => rw [(find?_on_eq_some_iff fun _ => fires_iff).mpr first]
    | unguarded silent first =>
      rw [(find?_on_eq_none_iff fun _ => fires_iff).mpr silent,
        (find?_on_eq_some_iff fun _ => unguarded_iff).mpr first]
      rfl
    | unmatched silent guarded =>
      rw [(find?_on_eq_none_iff fun _ => fires_iff).mpr silent,
        (find?_on_eq_none_iff fun _ => unguarded_iff).mpr guarded]
      rfl
  · rintro rfl
    split
    · rename_i b found
      exact .guarded ((find?_on_eq_some_iff fun _ => fires_iff).mp found)
    · rename_i missed
      have silent := (find?_on_eq_none_iff fun _ => fires_iff).mp missed
      cases bare : (bindings.filter (·.keystroke = k)).find? (·.guards.isNone) with
      | some b => exact .unguarded silent ((find?_on_eq_some_iff fun _ => unguarded_iff).mp bare)
      | none => exact .unmatched silent ((find?_on_eq_none_iff fun _ => unguarded_iff).mp bare)

/-- Among bindings without guards a keystroke comes to the first one on it, whatever the context. -/
lemma resolves_bare_iff :
    Resolves k context (bindings.filter (·.guards.isNone)) result ↔
      unguarded? (bindings.filter (·.keystroke = k)) = result := by
  have silent : ((bindings.filter (·.guards.isNone)).filter (·.keystroke = k)).find?
      (·.firesIn context) = none := by
    refine (find?_on_eq_none_iff fun _ => fires_iff).mpr fun b mem fires => ?_
    obtain ⟨guards, guarded, _⟩ := fires.guarded
    have bare := (List.mem_filter.mp mem).2
    rw [guarded] at bare
    cases bare
  have same : ((bindings.filter (·.guards.isNone)).filter (·.keystroke = k)).find?
      (·.guards.isNone) = (bindings.filter (·.keystroke = k)).find? (·.guards.isNone) := by
    rw [List.filter_comm, List.find?_filter]
    simp only [and_self, Bool.decide_eq_true]
  rw [resolves_iff_scan, silent, unguarded?, same]
  rfl

/-- A keymap, also one that bindings were added to, finds for a keystroke what going through its bindings
from the first to the last gives; where guards cannot be judged, it finds what going through those without
guards gives. -/
theorem resolves_iff (bindings more : List Binding) (k : Keystroke) (context : KeyContext)
    (result : Option Action) :
    let m := more.foldl (fun m b => m.add b) (ofBindings bindings)
    (m.action? k context = result ↔ Resolves k context (bindings ++ more) result) ∧
      (m.lookup? k = result ↔
        Resolves k context ((bindings ++ more).filter (·.guards.isNone)) result) := by
  intro m
  have listed : m.candidates k = (bindings ++ more).filter (·.keystroke = k) :=
    candidates_foldl bindings more k
  rw [resolves_iff_scan, resolves_bare_iff, action?, lookup?, listed]
  exact ⟨Iff.rfl, Iff.rfl⟩

/-- An empty list of guards always holds, and so wins over a binding without guards that stands first. -/
example :
    let tab : Keystroke := { key := .named .tab }
    let m := (ofBindings [⟨tab, .focusForward, none⟩]).add ⟨tab, .commitPreview, some []⟩
    m.action? tab ⟨true, true, false, false⟩ = some .commitPreview ∧
      m.lookup? tab = some .focusForward := by decide

end Keymap
end FilterEditor
