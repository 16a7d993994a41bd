import FilterEditor.Suggestion
import FilterEditor.Tree.Flatten

/-!
# Suggestion lists

The list a completer shows: a bounded number of candidates and, before them, an entry that searches
for the typed text. That entry is left out when the only candidate is the typed text already.
-/

namespace FilterEditor

/-- What a data source offers. -/
inductive Candidate where
  /-- A bare value, both search and label. -/
  | plain (value : Text)
  /-- A search with fields, of which `label` is the label. -/
  | described (search : Text) (fields : Fields)
deriving DecidableEq, Repr

/-- An entry of a list. -/
structure Entry where
  search : Text
  label : Text
  kind : Option Kind
  fields : Fields
deriving DecidableEq, Repr

namespace Entry

/-- The entry of a candidate, with the kind of the list. -/
def ofCandidate (kind : Option Kind) : Candidate → Entry
  | .plain value => ⟨value, value, kind, []⟩
  | .described search fields =>
    ⟨search, (fields.lookup "label".toList).getD search, kind,
      fields.filter (·.1 ≠ "label".toList)⟩

/-- The term of an entry. -/
def toTerm (e : Entry) : Term := ⟨e.label, e.search, e.fields.lookup "class".toList, e.kind⟩

end Entry

/-- What the first entry searches for. -/
inductive DefaultKind where
  /-- A single term, of the kind of the list if it has none of its own. -/
  | term (kind : Option Kind)
  /-- The conditions of a chain. -/
  | chain (connective : Connective) (children : List Tree)
deriving Repr, BEq

/-- The entry that searches for the typed text. -/
structure DefaultEntry where
  search : Text
  kind : Option Kind
  /-- The terms of the chain it searches with. -/
  terms : List Term
  /-- The labels of the columns of that chain. -/
  columns : List Text
deriving DecidableEq, Repr

namespace DefaultEntry

/-- The entry that searches for a text. -/
def ofKind (search : Text) (listKind : Option Kind) : DefaultKind → DefaultEntry
  | .term kind => ⟨search, kind.or listKind, [], []⟩
  | .chain connective children =>
    let terms := Tree.chainTerms .full connective children
    ⟨search, none, terms, (terms.filter (·.hasKind .column)).map (·.label)⟩

/-- The term of the entry. -/
def toTerm (e : DefaultEntry) : Term := ⟨e.search, e.search, none, e.kind⟩

end DefaultEntry

/-- What a list is made from. -/
structure SuggestionQuery where
  /-- The text that was typed. -/
  typed : Option Text := none
  candidates : List Candidate := []
  default : Option (Text × DefaultKind) := none
  /-- The kind of every entry. -/
  kind : Option Kind := none
deriving Repr, BEq

/-- An assembled list. -/
structure SuggestionList where
  entries : List Entry
  /-- Whether there were more candidates than are listed. -/
  hasMore : Bool
  default : Option DefaultEntry
deriving DecidableEq, Repr

namespace SuggestionList

/-- How many entries a list has at most. -/
def limit : Nat := 50

/-- Whether the typed text is the only entry already. -/
def isSettled (typed : Option Text) (entries : List Entry) : Bool :=
  match typed, entries with
  | some typed, [only] => !typed.isEmpty && (only.label == typed || only.search == typed)
  | _, _ => false

/-- The list of a query, of whose candidates only one past the limit is looked at. -/
def assemble (q : SuggestionQuery) : SuggestionList :=
  let read := q.candidates.take (limit + 1)
  let entries := (read.take limit).map (Entry.ofCandidate q.kind)
  let default := if isSettled q.typed entries then none else q.default
  { entries
    hasMore := limit < read.length
    default := default.map fun (search, kind) => DefaultEntry.ofKind search q.kind kind }

/-- Whether there is nothing to suggest. -/
def isEmpty (l : SuggestionList) : Bool := l.entries.isEmpty && l.default.isNone

/-- What the editor is handed when an entry is picked, in the order shown. -/
def suggestions (l : SuggestionList) : List Suggestion :=
  (l.default.toList.map fun e => Suggestion.ofTerm e.toTerm) ++
    l.entries.map fun e => Suggestion.ofTerm e.toTerm

end SuggestionList
end FilterEditor
