import FilterEditor.Proofs.Percent
import FilterEditor.Proofs.Reachable

/-!
# Chosen suggestions

A suggestion that is chosen for the trailing input is not committed as it is. Its label is written
into the input, which drops line breaks, and read back without white space at the ends; only if it is
still the label of the suggestion does the suggestion count. So a label survives that round trip
together with everything else, or the label alone is committed, as if somebody had typed it.
-/

namespace FilterEditor

variable {text : Text}

/-- Dropping line breaks leaves something of every text that is not blank. -/
lemma Line.trimmed_ofText_ne_nil (nonblank : text.trim ≠ []) : (ofText text).trimmed ≠ [] := by
  intro blank
  apply nonblank
  have blank := trim_eq_nil_iff.mp blank
  apply trim_eq_nil_iff.mpr
  intro c mem
  cases accepted : accepts c with
  | true => exact blank c (List.mem_filter.mpr ⟨mem, accepted⟩)
  | false =>
    by_contra nonblank
    have nonblank : Text.isBlank c = false := by simpa using nonblank
    cases accepted.symm.trans (accepts_of_nonblank nonblank)

/-- Different terms are committed as different terms. -/
lemma Grammar.prepare_injective (g : Grammar) : Function.Injective g.prepare := by
  intro t t' same
  obtain ⟨label, tag, kind⟩ := Editor.prepare_fields g t
  obtain ⟨label', tag', kind'⟩ := Editor.prepare_fields g t'
  rw [same] at label tag kind
  obtain ⟨_, search, _, k⟩ := t
  obtain ⟨_, search', _, _⟩ := t'
  cases label.symm.trans label'
  cases tag.symm.trans tag'
  cases kind.symm.trans kind'
  have searches := congrArg Term.search same
  suffices eq : search = search' by rw [eq]
  cases g with
  | plain => exact searches
  | filter =>
    cases k with
    | none => exact searches
    | some k =>
      cases k with
      | column | value => exact Percent.encode_injective searches
      | operator | logicalOperator | groupingOperator => exact searches

namespace Editor

/-- The term that a suggestion for the trailing input is to become: its label on one line and without
white space at the ends, and the expected kind if it has none. -/
def chosen (t : Term) (e : Editor) : Term :=
  e.grammar.prepare
    { t with label := (Line.ofText t.label).trimmed, kind := t.kind.or e.expected }

/-- The term that a text becomes which is typed into the trailing input. -/
def typed (text : Text) (e : Editor) : Term := e.grammar.prepare ⟨text, text, none, e.expected⟩

/-- A suggestion is worth no more than its label if it searches for that label, has no tag and is of
the expected kind. -/
lemma typed_eq_chosen_iff {t : Term} {e : Editor} :
    e.typed (Line.ofText t.label).trimmed = e.chosen t ↔
      t.search = (Line.ofText t.label).trimmed ∧ t.tag = none ∧ t.kind.or e.expected = e.expected := by
  rw [typed, chosen, (Grammar.prepare_injective _).eq_iff, Term.mk.injEq]
  simp only [true_and]
  exact ⟨fun ⟨search, tag, kind⟩ => ⟨search.symm, tag.symm, kind.symm⟩,
    fun ⟨search, tag, kind⟩ => ⟨search.symm, tag.symm, kind.symm⟩⟩

/-- A suggestion that is chosen for the trailing input joins the terms under its own label, on one line
and without white space at its ends, and nothing is left to be committed or carried. It joins them as
the term that it describes just if its label was like that before, or says it all. Of any other
suggestion only the label joins them. -/
theorem completion_commits_iff {data : Suggestion} (nonblank : data.toTerm.label.trim ≠ [])
    (e : Editor) :
    let t := data.toTerm
    let label := (Line.ofText t.label).trimmed
    let e' := (e.update (.completion .input data)).1
    (∃ u, e'.terms.terms = e.terms.terms ++ [u] ∧ u.label = label ∧
      (label ≠ t.label → u = e.typed label) ∧
      (u = e.chosen t ↔ label = t.label ∨
        t.search = label ∧ t.tag = none ∧ t.kind.or e.expected = e.expected)) ∧
      e'.input = {} ∧ e'.carried = none := by
  intro t label e'
  let written : Editor := { e with input := Line.ofText t.label, carried := some t }
  have nonblank : (written.slotText .input).trim ≠ [] := Line.trimmed_ofText_ne_nil nonblank
  have committed : e' = _ := exchange_of_reading (reading_of_nonblank nonblank)
  have composed : written.composed .input label =
      if t.label = label then e.chosen t else e.typed label := by
    rw [Editor.composed, suggested_of_some rfl]
    split
    · show e.grammar.prepare ⟨label, t.search, t.tag.or none, t.kind.or e.expected⟩ = _
      rw [Option.or_none]
      rfl
    · rfl
  rw [committed]
  refine ⟨⟨written.composed .input label, rfl, (prepare_fields _ _).1, fun other => ?_, ?_⟩, rfl, rfl⟩
  · rw [composed, if_neg other.symm]
  · rw [composed]
    by_cases same : t.label = label
    · rw [if_pos same]
      exact iff_of_true rfl (.inl same.symm)
    · rw [if_neg same, typed_eq_chosen_iff]
      exact (or_iff_right (Ne.symm same)).symm

/-- A column that is shown as something else than what is searched for, with a tag. -/
theorem completion_commits_column :
    let data := Suggestion.record [("termClass".toList, ['c']), ("termLabel".toList, ['H', ' ', 'n']),
      ("termSearch".toList, ['h', ' ', 'n'])]
    let e := new {} .filter
    let e' := (e.update (.completion .input data)).1
    data.toTerm.label.trim ≠ [] ∧ e'.input = {} ∧
      e'.terms.terms = [⟨['H', ' ', 'n'], "h%20n", some ['c'], some .column⟩] := by
  intro data e
  have nonblank : data.toTerm.label.trim ≠ [] := by decide
  obtain ⟨⟨u, terms, _, _, chosen⟩, input, _⟩ := completion_commits_iff nonblank e
  rw [chosen.mpr (.inl (by decide))] at terms
  exact ⟨nonblank, input, terms.trans (by decide)⟩

/-- A column whose label ends in white space is searched for by its label. -/
theorem completion_forgets_search :
    let e := new {} .filter
    let data := Suggestion.record [("termLabel".toList, "Host ".toList),
      ("termSearch".toList, "host.name".toList), ("termType".toList, "column".toList)]
    let e' := (e.update (.completion .input data)).1
    e.Reachable ∧ data.toTerm.label.trim ≠ [] ∧ e'.serialized = "Host" ∧
      e'.terms.terms ≠ e.terms.terms ++ [e.chosen data.toTerm] := by
  intro e data e'
  exact ⟨⟨_, [], .new {} .filter, rfl⟩, by decide⟩

end Editor
end FilterEditor
