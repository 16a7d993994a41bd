import FilterEditor.Text.Blank
import FilterEditor.Term

/-!
# Sequences of terms

The committed terms of an editor together with the search string that they stand for. The search
string is kept beside the terms and renewed by every change.
-/

namespace FilterEditor

/-- The searches of the terms, with the separator between neighbours, without white space at the
ends. -/
def joinSearch (terms : List Term) (separator : Text) : Text :=
  (Text.join separator (terms.map (·.search))).trim

/-- Committed terms and their search string. -/
structure Sequence where
  terms : List Term
  separator : Text
  serialized : Text
deriving DecidableEq, Repr

namespace Sequence

/-- The sequence without terms. -/
def empty (separator : Text) : Sequence := ⟨[], separator, []⟩

/-- The search string computed from the terms. -/
def serialize (s : Sequence) : Text := joinSearch s.terms s.separator

/-- The same separator with other terms. -/
def withTerms (terms : List Term) (s : Sequence) : Sequence :=
  { s with terms, serialized := joinSearch terms s.separator }

/-- The sequence of the given terms. -/
def ofTerms (separator : Text) (terms : List Term) : Sequence :=
  (empty separator).withTerms terms

/-- The number of terms. -/
def length (s : Sequence) : Nat := s.terms.length

/-- Whether there are no terms. -/
def isEmpty (s : Sequence) : Bool := s.terms.isEmpty

/-- The term at an index. -/
def get? (s : Sequence) (index : Nat) : Option Term := s.terms[index]?

/-- The last term. -/
def last? (s : Sequence) : Option Term := s.terms.getLast?

/-- Appends a term. -/
def push (t : Term) (s : Sequence) : Sequence := s.withTerms (s.terms ++ [t])

/-- Overwrites the term at an index, or appends the term where there is none; also gives the index
of the term. -/
def put (t : Term) (index : Option Nat) (s : Sequence) : Sequence × Nat :=
  match index with
  | some index =>
    if index < s.length then (s.withTerms (s.terms.set index t), index)
    else (s.push t, s.length)
  | none => (s.push t, s.length)

/-- Removes the term at an index; later terms move down by one. -/
def remove? (index : Nat) (s : Sequence) : Option (Term × Sequence) :=
  match s.terms[index]? with
  | none => none
  | some t => some (t, s.withTerms (s.terms.eraseIdx index))

/-- Replaces the term at an index by one with another label. -/
def replace? (index : Nat) (t : Term) (s : Sequence) : Option Sequence :=
  match s.terms[index]? with
  | none => none
  | some current =>
    if current.label = t.label then none else some (s.withTerms (s.terms.set index t))

/-- Removes all terms. -/
def clear (s : Sequence) : Sequence := empty s.separator

end Sequence
end FilterEditor
