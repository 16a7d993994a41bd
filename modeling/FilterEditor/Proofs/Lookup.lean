import Mathlib.Tactic.Common

/-!
# Entries by key

Lists of keys and what stands under them; of several entries of one key the first counts.
-/

namespace FilterEditor

variable {α β : Type} [BEq α] [LawfulBEq α]

/-- What is found under a key is an entry. -/
lemma mem_of_lookup {entries : List (α × β)} {key : α} {found : β} (h : entries.lookup key = some found) :
    (key, found) ∈ entries := by
  obtain ⟨before, behind, rfl, _⟩ := List.lookup_eq_some_iff.mp h
  exact List.mem_append_right before List.mem_cons_self

/-- Leaving out the entries of one key leaves all others. -/
lemma lookup_filter_ne [DecidableEq α] (entries : List (α × β)) (key other : α) :
    (entries.filter (·.1 ≠ other)).lookup key = if key = other then none else entries.lookup key := by
  induction entries with
  | nil => exact (ite_self none).symm
  | cons entry entries ih =>
    obtain ⟨first, found⟩ := entry
    by_cases left : first = other
    · rw [List.filter_cons_of_neg (by simpa using left), ih]
      by_cases asked : key = other
      · rw [if_pos asked, if_pos asked]
      · have differs : (key == first) = false := beq_false_of_ne fun same => asked (same.trans left)
        rw [if_neg asked, if_neg asked, List.lookup_cons, differs]
    · rw [List.filter_cons_of_pos (by simpa using left), List.lookup_cons, List.lookup_cons, ih]
      by_cases asked : key = first
      · have kept : key ≠ other := fun same => left (asked ▸ same)
        rw [if_neg kept, if_neg kept, beq_iff_eq.mpr asked]
      · rw [beq_false_of_ne asked]

end FilterEditor
