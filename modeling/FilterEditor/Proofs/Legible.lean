import FilterEditor.Proofs.Sentence
import FilterEditor.Proofs.Splitting
import Mathlib.Data.List.Basic
import Mathlib.Data.List.DropRight

/-!
# Legible search strings

A search string has a space between any two searches and no white space at its ends. It can be read
back, search by search, just if its terms are `Legible`: no search has a space of its own, and nothing
is trimmed off the first and the last.

A filter that is loaded keeps its columns, signs and values as they are, so it is up to them whether
the search string of the filter says what its terms are. Of two filters with one search string that
may be, if the terms differ, at most one is legible.
-/

namespace FilterEditor

/-! ## The ends of a text -/

namespace Text

/-- The parts of a search string between its spaces; the empty string has none. -/
def words (text : Text) : List Text := if text = [] then [] else List.splitOn ' ' text

/-- A text that shows where it begins and ends. -/
structure Framed (text : Text) : Prop where
  nonempty : text ≠ []
  first : ∀ c ∈ text.head?, Text.isBlank c = false
  last : ∀ c ∈ text.getLast?, Text.isBlank c = false

/-- A text that shows where it begins. -/
def Opens (text : Text) : Prop := ∃ c ∈ text.head?, isBlank c = false

/-- A text that shows where it ends. -/
def Closes (text : Text) : Prop := ∃ c ∈ text.getLast?, isBlank c = false

variable {text part : Text} {parts : List Text}

lemma framed_iff : Framed text ↔ Opens text ∧ Closes text := by
  constructor
  · intro framed
    have first := framed.first
    have last := framed.last
    rw [List.head?_eq_some_head framed.nonempty] at first
    rw [List.getLast?_eq_some_getLast framed.nonempty] at last
    exact ⟨⟨_, List.head?_eq_some_head framed.nonempty, first _ rfl⟩,
      ⟨_, List.getLast?_eq_some_getLast framed.nonempty, last _ rfl⟩⟩
  · rintro ⟨⟨c, first, opens⟩, ⟨d, last, closes⟩⟩
    refine ⟨?_, ?_, ?_⟩
    · rintro rfl
      cases first
    · intro x hx
      cases first.symm.trans hx
      exact opens
    · intro x hx
      cases last.symm.trans hx
      exact closes

lemma framed_trim (nonempty : text.trim ≠ []) : Framed text.trim where
  nonempty := nonempty
  first c hc := by
    have starts : text.trim <+: text.trimStart := List.rdropWhile_prefix isBlank text.trimStart
    have head := List.head?_dropWhile_not isBlank text
    obtain ⟨rest, eq⟩ := starts
    have first : (text.dropWhile isBlank).head? = some c := by
      rw [show text.dropWhile isBlank = text.trim ++ rest from eq.symm,
        List.head?_append_of_ne_nil _ nonempty]
      exact hc
    rw [first] at head
    exact head
  last c hc := by
    have last := List.rdropWhile_last_not isBlank text.trimStart nonempty
    rw [List.getLast?_eq_some_getLast nonempty] at hc
    cases hc
    exact Bool.eq_false_iff.mpr last

lemma opens_join (part : Text) (rest : List Text) :
    Opens (join [' '] (part :: rest)) ↔ Opens part := by
  cases rest with
  | nil => rw [join, List.intercalate_singleton]
  | cons next rest =>
    rw [join, List.intercalate_cons_cons, List.append_assoc]
    cases part with
    | nil => exact ⟨fun ⟨_, space, blank⟩ => (by cases space; cases blank), nofun⟩
    | cons => exact Iff.rfl

/-- A text after a space closes what stands before it. -/
lemma closes_append (before after : Text) : Closes (before ++ [' '] ++ after) ↔ Closes after := by
  cases after with
  | nil =>
    rw [List.append_nil]
    refine ⟨?_, nofun⟩
    rintro ⟨c, space, blank⟩
    rw [List.getLast?_concat] at space
    cases space
    cases blank
  | cons c after =>
    unfold Closes
    rw [List.getLast?_append_of_ne_nil _ (List.cons_ne_nil c after)]

lemma closes_join (parts : List Text) :
    Closes (join [' '] parts) ↔ ∃ part ∈ parts.getLast?, Closes part := by
  induction parts with
  | nil => exact ⟨nofun, nofun⟩
  | cons part rest ih =>
    cases rest with
    | nil =>
      rw [join, List.intercalate_singleton]
      simp
    | cons next rest =>
      rw [join, List.intercalate_cons_cons, closes_append, List.getLast?_cons_cons]
      exact ih

end Text

/-! ## Reading a search string back -/

/-- Terms whose search string shows where each search begins and ends. -/
structure Legible (terms : List Term) : Prop where
  spaceless : ∀ t ∈ terms, ' ' ∉ t.search
  first : ∀ t ∈ terms.head?, Text.Opens t.search
  last : ∀ t ∈ terms.getLast?, Text.Closes t.search

lemma framed_join_iff {terms : List Term} (some : terms ≠ []) :
    Text.Framed (Text.join [' '] (terms.map (·.search))) ↔
      (∀ t ∈ terms.head?, Text.Opens t.search) ∧ ∀ t ∈ terms.getLast?, Text.Closes t.search := by
  rw [Text.framed_iff, Text.closes_join, List.getLast?_map]
  cases terms with
  | nil => exact (some rfl).elim
  | cons t rest =>
    rw [List.map_cons, Text.opens_join, List.getLast?_eq_some_getLast some]
    simp

/-- The words of a search string are the searches of its terms just if these are legible. -/
lemma words_joinSearch_iff {terms : List Term} :
    (joinSearch terms [' ']).words = terms.map (·.search) ↔ Legible terms := by
  by_cases none : terms = []
  · subst none
    exact ⟨fun _ => ⟨nofun, nofun, nofun⟩, fun _ => rfl⟩
  · have some : terms.map (·.search) ≠ [] := fun eq => none (List.map_eq_nil_iff.mp eq)
    constructor
    · intro words
      have nonempty : joinSearch terms [' '] ≠ [] := by
        intro empty
        rw [empty] at words
        exact some words.symm
      rw [Text.words, if_neg nonempty] at words
      -- Joining the words again gives the search string, so nothing was trimmed off it.
      have untrimmed : Text.join [' '] (terms.map (·.search)) = joinSearch terms [' '] := by
        rw [Text.join, ← words, List.intercalate_splitOn]
      have framed := Text.framed_trim nonempty
      rw [show (Text.join [' '] (terms.map (·.search))).trim = joinSearch terms [' '] from rfl,
        ← untrimmed] at framed
      obtain ⟨first, last⟩ := (framed_join_iff none).mp framed
      refine ⟨fun t ht => ?_, first, last⟩
      have mem := List.mem_map_of_mem (f := (·.search)) ht
      rw [← words] at mem
      exact Text.not_mem_splitOn mem
    · rintro ⟨spaceless, first, last⟩
      have framed := (framed_join_iff none).mpr ⟨first, last⟩
      have parts : ∀ part ∈ terms.map (·.search), ' ' ∉ part := by
        intro part mem
        obtain ⟨t, ht, rfl⟩ := List.mem_map.mp mem
        exact spaceless t ht
      rw [joinSearch, trim_of_ends framed.first framed.last, Text.words, if_neg framed.nonempty]
      exact List.splitOn_intercalate ' ' parts some

/-! ## Loaded filters -/

/-- An editor that separates searches by spaces and shows a filter, which it started with or loaded. -/
inductive Loaded (tree : Tree) : Editor → Prop
  | start {settings : Settings} (separator : settings.separator = [' ']) :
      Loaded tree (Editor.ofTree settings tree)
  | load {e : Editor} (separator : e.settings.separator = [' ']) :
      Loaded tree (e.respond (.load (.tree tree))).editor

namespace Loaded

variable {tree f g : Tree} {e e' : Editor}

lemma terms (h : Loaded tree e) : e.terms.terms = tree.terms := by
  cases h with
  | start => rfl
  | load =>
    rw [Tree.load_tree]
    rfl

lemma serialized (h : Loaded tree e) : e.serialized = joinSearch tree.terms [' '] := by
  have restored : ∀ e : Editor, e.settings.separator = [' '] →
      (e.restore tree.terms).serialized = joinSearch tree.terms [' '] :=
    fun _ separator => congrArg (joinSearch tree.terms) separator
  cases h with
  | start separator => exact restored (.new _ .filter) separator
  | load separator =>
    rw [Tree.load_tree]
    exact restored _ separator

lemma words_iff (h : Loaded tree e) :
    e.serialized.words = e.terms.terms.map (·.search) ↔ Legible tree.terms := by
  rw [h.serialized, h.terms]
  exact words_joinSearch_iff

end Loaded

/-- The search string of a loaded filter can be read back just if the filter is legible: then its
words are the searches, and every other filter with this search string has the same searches just if
it is legible too. -/
theorem serialized_loaded_iff {f g : Tree} {e e' : Editor} (first : Loaded f e)
    (other : Loaded g e') :
    (e.serialized.words = e.terms.terms.map (·.search) ↔ Legible f.terms) ∧
      (Legible f.terms → e.serialized = e'.serialized →
        (e.terms.terms.map (·.search) = e'.terms.terms.map (·.search) ↔ Legible g.terms)) := by
  refine ⟨first.words_iff, fun legible same => ?_⟩
  rw [← other.words_iff, ← first.words_iff.mpr legible, same]

/-- One condition whose value reads like a second one, and the two conditions. -/
theorem serialized_loaded_forged :
    let forged := Tree.condition ⟨['a'], ['='], .text "b & c = d".toList, none⟩
    let both := Tree.chain .all
      [.condition ⟨['a'], ['='], .text ['b'], none⟩, .condition ⟨['c'], ['='], .text ['d'], none⟩]
    Loaded both (Editor.ofTree {} both) ∧ Loaded forged (Editor.ofTree {} forged) ∧
      Legible both.terms ∧ (Editor.ofTree {} both).serialized = (Editor.ofTree {} forged).serialized ∧
      ¬ Legible forged.terms := by
  intro forged both
  have loaded : Loaded both (Editor.ofTree {} both) := .start rfl
  have loaded' : Loaded forged (Editor.ofTree {} forged) := .start rfl
  obtain ⟨readable, others⟩ := serialized_loaded_iff loaded loaded'
  have legible : Legible both.terms := readable.mp (by decide)
  have same : (Editor.ofTree {} both).serialized = (Editor.ofTree {} forged).serialized := by decide
  refine ⟨loaded, loaded', legible, same, fun legible' => ?_⟩
  exact absurd ((others legible same).mpr legible') (by decide)

/-- So filters with one search string may differ in their terms. -/
theorem serialized_loaded_confused :
    ¬ ∀ f g e e', Loaded f e → Loaded g e' → e.serialized = e'.serialized →
      e.terms.terms.map (·.search) = e'.terms.terms.map (·.search) := by
  intro unique
  have started (tree : Tree) : Loaded tree (Editor.ofTree {} tree) := .start rfl
  have searches := unique (.condition ⟨['a'], ['='], .text "b & c = d".toList, none⟩)
    (.chain .all [.condition ⟨['a'], ['='], .text ['b'], none⟩,
      .condition ⟨['c'], ['='], .text ['d'], none⟩]) _ _ (started _) (started _) (by decide)
  exact absurd searches (by decide)

end FilterEditor
