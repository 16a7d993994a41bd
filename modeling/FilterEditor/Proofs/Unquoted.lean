import FilterEditor.Proofs.Printable
import FilterEditor.Yaml.Plain

/-!
# Plain scalars read back

A text is written plain if it is one line that ends in no space, begins with no mark and holds neither a
colon before a gap nor a number sign behind one. The reader goes from gap to gap: every gap inside of the
text is kept, as it holds spaces only (`Bare.read`), and the break behind the text ends the scalar, as what
follows is not indented.
-/

namespace FilterEditor.Yaml

variable {before c : Char} {text run rest next : Text} {indent fuel : Nat}

/-! ## Marks -/

/-- A break behind a text is a gap like the end of the text. -/
lemma atGap_append (text next : Text) : atGap (text ++ '\n' :: next) = atGap text := by
  cases text <;> rfl

lemma holdsMark_cons (before c : Char) (rest : Text) :
    holdsMark before (c :: rest) = false ↔
      (c = ':' → atGap rest = false) ∧ (c = '#' → isGap before = false) ∧ holdsMark c rest = false := by
  simp [holdsMark, and_assoc]

/-- What holds no mark behind one character holds none behind a later one. -/
lemma holdsMark_append (none : holdsMark before (text ++ rest) = false) :
    holdsMark (text.getLast?.getD before) rest = false := by
  induction text generalizing before with
  | nil => exact none
  | cons c more ih =>
    have last : (c :: more).getLast?.getD before = more.getLast?.getD c := by
      rw [List.getLast?_cons]
      rfl
    rw [last]
    exact ih ((holdsMark_cons before c _).mp none).2.2

lemma atGap_of_holdsMark (none : holdsMark before (text ++ ':' :: rest) = false) : atGap rest = false :=
  ((holdsMark_cons _ _ _).mp (holdsMark_append none)).1 rfl

/-! ## Runs -/

/-- A run of characters that are in no gap goes on until something else begins, if no colon in it ends the
scalar. -/
lemma plainRun_append (other : ∀ c ∈ run, isGap c = false)
    (colon : ∀ a b, run = a ++ ':' :: b → atGap (b ++ rest) = false)
    (stops : plainRun false rest = some ([], rest)) :
    plainRun false (run ++ rest) = some (run, rest) := by
  induction run with
  | nil => exact stops
  | cons c more ih =>
    obtain ⟨first, others⟩ := List.forall_mem_cons.mp other
    have goes : plainStops false (c :: (more ++ rest)) = false := by
      simp only [plainStops, Bool.false_and, Bool.or_false, Bool.and_eq_false_imp, beq_iff_eq]
      rintro rfl
      exact colon [] more rfl
    have behind := ih others fun a b eq => colon (c :: a) b (congrArg (c :: ·) eq)
    rw [List.cons_append, plainRun, first, Bool.false_and, if_neg Bool.false_ne_true,
      if_neg Bool.false_ne_true, goes, if_neg Bool.false_ne_true, behind]
    rfl

lemma plainRun_gap (gap : isGap c = true) (rest : Text) :
    plainRun false (c :: rest) = some ([], c :: rest) := by
  rw [plainRun, if_pos gap]

/-! ## Scalars -/

/-- The break behind a run ends the scalar, if what follows is not indented. -/
lemma plainFrom_break (fuel : Nat) (found : plainRun false text = some (run, '\n' :: next))
    (clear : Clear isGap next) (indented : 0 < indent) :
    plainFrom false indent (fuel + 1) text = some ⟨run, true, next⟩ := by
  have feed : ∀ c ∈ ['\n'], isGap c = true := List.forall_mem_singleton.mpr (by decide)
  have gap : ('\n' :: next).takeWhile isGap = ['\n'] := takeWhile_run feed clear
  have behind : ('\n' :: next).dropWhile isGap = next := dropWhile_run feed clear
  have untabbed : tabIndented indent [('\n', [])] = false := by
    simp [tabIndented]
  have ended : plainOver false indent [('\n', [])] next = true := by
    simp [plainOver, indented]
  rw [plainFrom, found, Option.bind_eq_bind, Option.bind_some]
  dsimp only
  have lines : (gapLines ['\n']).2 = [('\n', [])] := rfl
  rw [gap, behind, lines, if_neg (by decide), untabbed, if_neg Bool.false_ne_true, if_pos ended]
  rfl

/-- Behind spaces the scalar goes on, unless it is over, and the spaces stay. -/
lemma plainFrom_spaces {gap : Text} (fuel : Nat) (found : plainRun false text = some (run, gap ++ rest))
    (nonempty : gap ≠ []) (spaces : ∀ c ∈ gap, c = ' ') (clear : Clear isGap rest)
    (goes : plainOver false indent [] rest = false) :
    plainFrom false indent (fuel + 1) text =
      (plainFrom false indent fuel rest).map fun more => { more with text := run ++ gap ++ more.text } := by
  have unbroken : ∀ c ∈ gap, isBreak c = false := fun c mem => spaces c mem ▸ not_isBreak_space
  have gaps : ∀ c ∈ gap, isGap c = true := fun c mem => spaces c mem ▸ by decide
  have untabbed : tabIndented indent [] = false := rfl
  rw [plainFrom, found, Option.bind_eq_bind, Option.bind_some]
  dsimp only
  rw [takeWhile_run gaps clear, dropWhile_run gaps clear, gapLines_blanks unbroken,
    foldGap_blanks unbroken, if_neg (by simpa using nonempty), untabbed, if_neg Bool.false_ne_true, goes,
    if_neg Bool.false_ne_true]
  cases plainFrom false indent fuel rest <;> rfl

/-- A text that can be read as one plain scalar behind a character. -/
structure Bare (before : Char) (text : Text) : Prop where
  printable : ∀ c ∈ text, isPrintable c = true
  unbroken : ∀ c ∈ text, isBreak c = false
  unmarked : holdsMark before text = false
  last : text.getLast?.any isSpace = false

namespace Bare

/-- No colon in a run of such a text ends the scalar. -/
lemma colon (h : Bare before (run ++ rest)) (next : Text) :
    ∀ a b, run = a ++ ':' :: b → atGap (b ++ (rest ++ '\n' :: next)) = false := by
  rintro a b rfl
  have unmarked := h.unmarked
  rw [List.append_assoc, List.cons_append] at unmarked
  rw [← List.append_assoc, atGap_append]
  exact atGap_of_holdsMark unmarked

/-- Behind a run and some spaces such a text goes on with something that ends no scalar. -/
lemma behind {gap : Text} (h : Bare before (run ++ (gap ++ rest))) (nonempty : gap ≠ [])
    (spaces : ∀ c ∈ gap, c = ' ') : rest ≠ [] ∧ Bare ' ' rest := by
  have last : gap.getLast? = some ' ' := by
    rw [List.getLast?_eq_some_getLast nonempty, spaces _ (List.getLast_mem nonempty)]
  have unmarked : holdsMark ' ' rest = false := by
    have unmarked := holdsMark_append (holdsMark_append h.unmarked)
    rwa [last] at unmarked
  have ends : rest ≠ [] := by
    rintro rfl
    have space := h.last
    rw [List.append_nil, List.getLast?_append, last] at space
    cases space
  refine ⟨ends, fun c mem => h.printable c ?_, fun c mem => h.unbroken c ?_, unmarked, ?_⟩
  · exact List.mem_append_right _ (List.mem_append_right _ mem)
  · exact List.mem_append_right _ (List.mem_append_right _ mem)
  · have final := h.last
    rw [List.getLast?_append, List.getLast?_append, List.getLast?_eq_some_getLast ends] at final
    rwa [List.getLast?_eq_some_getLast ends]

/-- The scalar is not over behind a gap inside of such a text. -/
lemma not_over (h : Bare ' ' rest) (nonempty : rest ≠ []) (next : Text) :
    plainOver false indent [] (rest ++ '\n' :: next) = false := by
  obtain ⟨c, more, rfl⟩ := List.exists_cons_of_ne_nil nonempty
  obtain ⟨colon, sign, _⟩ := (holdsMark_cons _ _ _).mp h.unmarked
  have other : c ≠ '#' := fun eq => Bool.noConfusion (sign eq)
  simp only [plainOver, List.cons_append, List.head?_cons, plainStops, Bool.false_and, Bool.or_false,
    List.getLast?_nil, Bool.or_eq_false_iff, Bool.and_eq_false_imp, beq_iff_eq, atGap_append]
  exact ⟨by simpa using other, colon⟩

/-- A plain scalar is read up to the break behind it, if what follows is not indented. -/
lemma read (h : Bare before text) (start : Clear isGap text) (indented : 0 < indent)
    (clear : Clear isGap next) (enough : text.length < fuel) :
    plainFrom false indent fuel (text ++ '\n' :: next) = some ⟨text, true, next⟩ := by
  induction fuel generalizing before text with
  | zero => cases enough
  | succ fuel ih =>
    obtain ⟨run, behind, rfl, other, clearBehind⟩ := exists_run (fun c => !isGap c) text
    have other : ∀ c ∈ run, isGap c = false := fun c mem => by simpa using other c mem
    obtain ⟨gap, rest, rfl, all, clearRest⟩ := exists_run isGap behind
    have spaces : ∀ c ∈ gap, c = ' ' := by
      intro c mem
      have mem : c ∈ run ++ (gap ++ rest) := List.mem_append_right _ (List.mem_append_left _ mem)
      rcases isGap_of_isPrintable (h.printable c mem) (all c ‹_›) with space | broken
      · exact space
      · cases (h.unbroken c mem).symm.trans broken
    have colon := h.colon next
    by_cases none : gap = []
    · subst none
      -- A run that no gap follows is all of the text.
      cases eq_nil_of_clear clearRest clearBehind
      have found := plainRun_append other colon (plainRun_gap (by decide) next)
      rw [List.append_nil, List.append_nil]
      exact plainFrom_break fuel found clear indented
    · obtain ⟨ends, bare⟩ := h.behind none spaces
      have stops : plainRun false (gap ++ rest ++ '\n' :: next) =
          some ([], gap ++ rest ++ '\n' :: next) := by
        obtain ⟨c, more, rfl⟩ := List.exists_cons_of_ne_nil none
        exact plainRun_gap (all c List.mem_cons_self) _
      have found := plainRun_append other colon stops
      have some := List.length_pos_iff.mpr none
      simp only [List.length_append] at enough
      rw [List.append_assoc] at found
      rw [List.append_assoc, List.append_assoc,
        plainFrom_spaces fuel found none spaces (clearRest.append ends) (bare.not_over ends next),
        ih bare clearRest (by omega), Option.map_some, List.append_assoc]

end Bare

/-- The characters that begin no plain scalar, whatever follows. -/
def marks : List Char :=
  ['#', ',', '[', ']', '\x7b', '\x7d', '&', '*', '!', '|', '>', '\'', '"', '%', '@', '\x60']

lemma startsMarked_cons :
    startsMarked (c :: rest) = false ↔
      c ∉ marks ∧ (c = '?' ∨ c = ':' ∨ c = '-' → atGap rest = false) := by
  simp [startsMarked, marks]

/-- What is written plain is read as a plain scalar. -/
lemma bare_of_fitsPlain (fits : fitsPlain text = true) : Bare ' ' text ∧ Clear isGap text := by
  simp only [fitsPlain, Bool.and_eq_true, Bool.not_eq_true', List.all_eq_true, List.any_eq_false] at fits
  obtain ⟨⟨⟨⟨⟨printable, unbroken⟩, space⟩, last⟩, start⟩, mark⟩ := fits
  have unbroken : ∀ c ∈ text, isBreak c = false := fun c mem => Bool.of_not_eq_true (unbroken c mem)
  cases text with
  | nil => exact ⟨⟨printable, unbroken, rfl, last⟩, clear_nil⟩
  | cons c rest =>
    obtain ⟨unmarked, colon⟩ := startsMarked_cons.mp start
    have sign : c ≠ '#' := by
      rintro rfl
      exact unmarked (by decide)
    refine ⟨⟨printable, unbroken, ?_, last⟩, clear_cons_iff.mpr ?_⟩
    · exact (holdsMark_cons _ _ _).mpr
        ⟨fun eq => colon (.inr (.inl eq)), fun eq => (sign eq).elim, mark⟩
    · by_contra gap
      rcases isGap_of_isPrintable (printable c List.mem_cons_self) (Bool.of_not_eq_false gap) with
        rfl | broken
      · cases space
      · cases (unbroken c List.mem_cons_self).symm.trans broken

lemma plain?_of_fitsPlain (fits : fitsPlain text = true) (indented : 0 < indent)
    (clear : Clear isGap next) :
    plain? false indent (text ++ '\n' :: next) = some ⟨text, true, next⟩ := by
  obtain ⟨bare, start⟩ := bare_of_fitsPlain fits
  apply bare.read start indented clear
  rw [List.length_append]
  omega

end FilterEditor.Yaml
