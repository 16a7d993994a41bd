import FilterEditor.Text.Basic
import Mathlib.Data.List.Basic
import Mathlib.Tactic.Common

/-!
# Texts cut at a mark

A text is cut at every mark, so no part holds one, and parts without a mark are found again in what they are
joined to. Where some parts are left out, as the empty ones are, it is enough that none of those was joined.
-/

namespace FilterEditor.Text

variable {mark : Char} {text part : Text} {parts : List Text}

lemma not_mem_splitOn (h : part ∈ List.splitOn mark text) : mark ∉ part := by
  induction text generalizing part with
  | nil =>
    cases List.mem_singleton.mp h
    nofun
  | cons c rest ih =>
    rw [List.splitOn_cons_eq_if_modifyHead] at h
    split at h
    · rcases List.mem_cons.mp h with rfl | h
      · nofun
      · exact ih h
    · rename_i other
      obtain ⟨first, more, eq⟩ := List.exists_cons_of_ne_nil (List.splitOn_ne_nil mark rest)
      rw [eq, List.modifyHead_cons] at h
      rcases List.mem_cons.mp h with rfl | h
      · intro mem
        rcases List.mem_cons.mp mem with rfl | mem
        · exact other (beq_self_eq_true mark)
        · exact ih (eq ▸ List.mem_cons_self) mem
      · exact ih (eq ▸ List.mem_cons_of_mem _ h)

/-- Parts that hold no mark are found again where they are joined by it. -/
lemma filter_splitOn_join {keep : Text → Bool} (empty : keep [] = false)
    (kept : ∀ part ∈ parts, keep part = true ∧ mark ∉ part) :
    (List.splitOn mark (join [mark] parts)).filter keep = parts := by
  rcases eq_or_ne parts [] with rfl | nonempty
  · exact List.filter_cons_of_neg (by simpa using empty)
  · have cut : List.splitOn mark (join [mark] parts) = parts :=
      List.splitOn_intercalate mark (fun part mem => (kept part mem).2) nonempty
    rw [cut, List.filter_eq_self]
    exact fun part mem => (kept part mem).1

end FilterEditor.Text
