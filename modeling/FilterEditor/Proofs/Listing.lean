import FilterEditor.Proofs.Lookup
import FilterEditor.SuggestionList
import Mathlib.Data.List.Forall2
import Mathlib.Tactic.Common

/-!
# Listing suggestions

A list shows the first fifty of its candidates and tells whether there are more, for which it looks at one
candidate more and no further (`assemble_take`). Before them stands an entry that searches for the typed
text, unless the typed text is the only entry already (`isSettled_iff`). What is handed on when an entry is
picked are named fields; every term is read back from its fields (`ofFields_toFields`), and so the term
that arrives is the term of the entry.
-/

namespace FilterEditor

/-! ## Terms as fields -/

lemma Kind.ofName?_name (kind : Kind) : ofName? kind.name = some kind := by
  cases kind <;> decide

namespace Term

variable {d : Draft} {value : Text}

/-- A field is read by what follows the common start of the names, with its first letter in lower case. -/
lemma Draft.addField_part (d : Draft) (part value : Text) :
    d.addField (fieldStart ++ part, value) =
      if Casing.lowerFirst part = "label".toList then { d with label := some value }
      else if Casing.lowerFirst part = "search".toList then { d with search := some value }
      else if Casing.lowerFirst part = "class".toList then { d with tag := some value }
      else if Casing.lowerFirst part = "type".toList then { d with kind := Kind.ofName? value }
      else d :=
  rfl

lemma Draft.addField_label :
    d.addField (fieldStart ++ "Label".toList, value) = { d with label := some value } := by
  rw [addField_part, if_pos (by decide)]

lemma Draft.addField_search :
    d.addField (fieldStart ++ "Search".toList, value) = { d with search := some value } := by
  rw [addField_part, if_neg (by decide), if_pos (by decide)]

lemma Draft.addField_class :
    d.addField (fieldStart ++ "Class".toList, value) = { d with tag := some value } := by
  rw [addField_part, if_neg (by decide), if_neg (by decide), if_pos (by decide)]

lemma Draft.addField_type :
    d.addField (fieldStart ++ "Type".toList, value) = { d with kind := Kind.ofName? value } := by
  rw [addField_part, if_neg (by decide), if_neg (by decide), if_neg (by decide), if_pos (by decide)]

/-- A term is read back from the fields that describe it. -/
lemma ofFields_toFields (t : Term) : ofFields t.toFields = t := by
  obtain ⟨label, search, tag, kind⟩ := t
  have tagged : (tag.map fun tag => (fieldStart ++ "Class".toList, tag)).toList.foldl
      Draft.addField {} = { tag } := by
    cases tag with
    | none => rfl
    | some tag => exact Draft.addField_class
  have named : ∀ d : Draft, d.kind = none →
      (kind.map fun kind => (fieldStart ++ "Type".toList, kind.name)).toList.foldl
        Draft.addField d = { d with kind } := by
    intro d none
    cases kind with
    | none =>
      obtain ⟨_, _, _, _⟩ := d
      cases none
      rfl
    | some kind =>
      show d.addField (fieldStart ++ "Type".toList, kind.name) = _
      rw [Draft.addField_type, Kind.ofName?_name]
  rw [ofFields, toFields, List.foldl_append, List.foldl_append, tagged, List.foldl_cons,
    List.foldl_cons, List.foldl_nil, Draft.addField_label, Draft.addField_search, named _ rfl]
  rfl

end Term

lemma Suggestion.toTerm_ofTerm (t : Term) : (ofTerm t).toTerm = t := t.ofFields_toFields

/-! ## Entries -/

namespace Candidate

/-- What a candidate searches for. -/
def search : Candidate → Text
  | plain value => value
  | described search _ => search

/-- The fields of a candidate; a bare value has none. -/
def fields : Candidate → Fields
  | plain _ => []
  | described _ fields => fields

end Candidate

/-- An entry shows a candidate: under the label among its fields, or else under its search, and with the
kind of the list. The label is no field of the entry any more. -/
structure Entry.Shows (kind : Option Kind) (c : Candidate) (e : Entry) : Prop where
  search : e.search = c.search
  label : e.label = (c.fields.lookup "label".toList).getD c.search
  fields : ∀ name, e.fields.lookup name =
    if name = "label".toList then none else c.fields.lookup name
  kind : e.kind = kind

lemma Entry.shows_ofCandidate (kind : Option Kind) (c : Candidate) :
    Shows kind c (ofCandidate kind c) := by
  cases c with
  | plain value => exact ⟨rfl, rfl, fun name => (ite_self none).symm, rfl⟩
  | described search fields =>
    exact ⟨rfl, rfl, fun name => lookup_filter_ne fields name _, rfl⟩

namespace SuggestionList

variable {q : SuggestionQuery} {typed : Option Text} {entries : List Entry}

/-! ## The limit -/

lemma entries_assemble (q : SuggestionQuery) :
    (assemble q).entries = (q.candidates.take limit).map (Entry.ofCandidate q.kind) := by
  show ((q.candidates.take (limit + 1)).take limit).map _ = _
  rw [List.take_take, Nat.min_eq_left (Nat.le_succ limit)]

lemma hasMore_assemble (q : SuggestionQuery) :
    (assemble q).hasMore = true ↔ limit < q.candidates.length := by
  show decide (limit < (q.candidates.take (limit + 1)).length) = true ↔ _
  rw [decide_eq_true_iff, List.length_take]
  omega

/-- Candidates past the limit are not looked at, but for one. -/
lemma assemble_take (q : SuggestionQuery) :
    assemble { q with candidates := q.candidates.take (limit + 1) } = assemble q := by
  have again : (q.candidates.take (limit + 1)).take (limit + 1) = q.candidates.take (limit + 1) := by
    rw [List.take_take, Nat.min_self]
  unfold assemble
  rw [again]

/-! ## The entry before the candidates -/

/-- The typed text is not empty, and is the label or the search of the only entry. -/
def OnlyTyped (typed : Option Text) (entries : List Entry) : Prop :=
  ∃ text only, typed = some text ∧ text ≠ [] ∧ entries = [only] ∧
    (only.label = text ∨ only.search = text)

lemma isSettled_iff : isSettled typed entries = true ↔ OnlyTyped typed entries := by
  constructor
  · intro settled
    unfold isSettled at settled
    split at settled
    · rename_i text only
      simp only [Bool.and_eq_true, Bool.not_eq_true', List.isEmpty_eq_false_iff, Bool.or_eq_true,
        beq_iff_eq] at settled
      exact ⟨text, only, rfl, settled.1, rfl, settled.2⟩
    · cases settled
  · rintro ⟨text, only, rfl, nonempty, rfl, named⟩
    simp only [isSettled, Bool.and_eq_true, Bool.not_eq_true', List.isEmpty_eq_false_iff,
      Bool.or_eq_true, beq_iff_eq]
    exact ⟨nonempty, named⟩

lemma default_assemble (q : SuggestionQuery) :
    (assemble q).default =
      (if isSettled q.typed (assemble q).entries then none else q.default).map
        fun given => DefaultEntry.ofKind given.1 q.kind given.2 :=
  rfl

/-- The entry before the candidates is left out just if there is none, or the typed text is the only entry
already. -/
lemma default_eq_none_iff (q : SuggestionQuery) :
    (assemble q).default = none ↔ q.default = none ∨ OnlyTyped q.typed (assemble q).entries := by
  rw [default_assemble, Option.map_eq_none_iff, ← isSettled_iff]
  cases isSettled q.typed (assemble q).entries <;> simp

/-! ## What is handed on -/

lemma toTerm_suggestions (l : SuggestionList) :
    l.suggestions.map Suggestion.toTerm =
      (l.default.toList.map fun d => ⟨d.search, d.search, none, d.kind⟩) ++
        l.entries.map Entry.toTerm := by
  rw [suggestions, List.map_append, List.map_map, List.map_map]
  congr 1
  · exact List.map_congr_left fun d _ => Suggestion.toTerm_ofTerm d.toTerm
  · exact List.map_congr_left fun e _ => Suggestion.toTerm_ofTerm e.toTerm

/-- A list shows the first fifty candidates in order and says whether there are more, without looking at
more than fifty-one. Its first entry is dropped just if the typed text is the only entry already. What is
handed on for the entries are their terms, in the order shown, and every term survives being handed on. -/
theorem assembled_exactly (q : SuggestionQuery) :
    let l := assemble q
    let n := q.candidates.length
    List.Forall₂ (Entry.Shows q.kind) (q.candidates.take 50) l.entries ∧
      l.entries.length = min n 50 ∧ (l.hasMore = true ↔ 50 < n) ∧
      assemble { q with candidates := q.candidates.take 51 } = l ∧
      (l.default = none ↔ q.default = none ∨ OnlyTyped q.typed l.entries) ∧
      (∀ d ∈ l.default, ∃ given ∈ q.default, d = DefaultEntry.ofKind given.1 q.kind given.2) ∧
      l.suggestions.map Suggestion.toTerm =
        (l.default.toList.map fun d => ⟨d.search, d.search, none, d.kind⟩) ++
          l.entries.map Entry.toTerm ∧
      ∀ t : Term, Term.ofFields t.toFields = t := by
  intro l n
  refine ⟨?_, ?_, hasMore_assemble q, assemble_take q, default_eq_none_iff q, ?_, toTerm_suggestions l,
    Term.ofFields_toFields⟩
  · rw [entries_assemble, List.forall₂_map_right_iff]
    exact List.forall₂_same.mpr fun c _ => Entry.shows_ofCandidate q.kind c
  · rw [entries_assemble, List.length_map, List.length_take, Nat.min_comm]
    rfl
  · intro d given
    rw [default_assemble] at given
    obtain ⟨found, kept, eq⟩ := Option.map_eq_some_iff.mp given
    split at kept
    · cases kept
    · exact ⟨found, kept, eq.symm⟩

/-- The typed text is the label of the only candidate, which searches for something else. -/
theorem assembled_exactly_typed :
    let fields := [("class".toList, ['c']), ("label".toList, ['H'])]
    let q : SuggestionQuery :=
      { typed := some ['H'], candidates := [.described ['h'] fields],
        default := some (['H'], .term none), kind := some .column }
    (assemble q).default = none ∧ (assemble q).hasMore = false ∧
      (assemble q).suggestions.map Suggestion.toTerm = [⟨['H'], ['h'], some ['c'], some .column⟩] := by
  intro fields q
  obtain ⟨_, _, more, _, dropped, _, terms, _⟩ := assembled_exactly q
  have only : OnlyTyped q.typed (assemble q).entries := ⟨['H'], _, rfl, nofun, rfl, .inl rfl⟩
  refine ⟨dropped.mpr (.inr only), ?_, terms⟩
  rw [← Bool.not_eq_true, more]
  decide

end SuggestionList
end FilterEditor
