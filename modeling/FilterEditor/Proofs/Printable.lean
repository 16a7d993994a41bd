import FilterEditor.Proofs.Lookup
import FilterEditor.Yaml.Printer
import Mathlib.Data.List.Chain
import Mathlib.Data.List.TakeWhile
import Mathlib.Tactic.Common

/-!
# Characters that are written as they are

Outside of escapes only printable characters are written. None of them is a tab or a carriage return, so a
blank is a space, a break means itself, and what stands between two parts of a written text is easily told:
`exists_run` cuts a text behind the longest run of one class, and the readers find the same run again
(`takeWhile_run`, `dropWhile_run`).
-/

namespace FilterEditor.Yaml

variable {p : Char → Bool} {c : Char} {text run rest blanks breaks : Text}

/-! ## Runs -/

/-- A text does not begin with a character of a class. -/
def Clear (p : Char → Bool) (text : Text) : Prop := ∀ c ∈ text.head?, p c = false

lemma clear_nil : Clear p [] := nofun

lemma clear_cons_iff : Clear p (c :: rest) ↔ p c = false := by
  constructor
  · intro clear
    exact clear c rfl
  · intro other d mem
    cases mem
    exact other

/-- What follows a text that is not empty makes no difference to its beginning. -/
lemma Clear.append (clear : Clear p text) (nonempty : text ≠ []) : Clear p (text ++ rest) := by
  obtain ⟨c, more, rfl⟩ := List.exists_cons_of_ne_nil nonempty
  exact clear_cons_iff.mpr (clear_cons_iff.mp clear)

lemma Clear.imp {q : Char → Bool} (clear : Clear p text) (sub : ∀ {c}, p c = false → q c = false) :
    Clear q text := fun c first => sub (clear c first)

/-- Only the empty text begins neither in a class nor outside of it. -/
lemma eq_nil_of_clear (clear : Clear p text) (other : Clear (fun c => !p c) text) : text = [] := by
  cases text with
  | nil => rfl
  | cons c rest =>
    have inside := clear_cons_iff.mp other
    rw [clear_cons_iff.mp clear] at inside
    cases inside

lemma takeWhile_run (all : ∀ c ∈ run, p c = true) (clear : Clear p rest) :
    (run ++ rest).takeWhile p = run := by
  rw [List.takeWhile_append_of_pos all]
  cases rest with
  | nil => rw [List.takeWhile_nil, List.append_nil]
  | cons c rest =>
    rw [List.takeWhile_cons_of_neg (Bool.eq_false_iff.mp (clear_cons_iff.mp clear)), List.append_nil]

lemma dropWhile_run (all : ∀ c ∈ run, p c = true) (clear : Clear p rest) :
    (run ++ rest).dropWhile p = rest := by
  rw [List.dropWhile_append_of_pos all]
  cases rest with
  | nil => rfl
  | cons c rest => rw [List.dropWhile_cons_of_neg (Bool.eq_false_iff.mp (clear_cons_iff.mp clear))]

/-- A text falls into its longest run of one class and what follows it. -/
lemma exists_run (p : Char → Bool) (text : Text) :
    ∃ run rest, text = run ++ rest ∧ (∀ c ∈ run, p c = true) ∧ Clear p rest := by
  refine ⟨text.takeWhile p, text.dropWhile p, List.takeWhile_append_dropWhile.symm,
    fun c => List.mem_takeWhile_imp, ?_⟩
  intro c first
  have other := List.head?_dropWhile_not p text
  rw [first] at other
  exact other

/-- A text is made of characters outside of a class and of whole runs of that class. -/
theorem run_induction (p : Char → Bool) {motive : Text → Prop} (nil : motive [])
    (other : ∀ c rest, p c = false → motive rest → motive (c :: rest))
    (run : ∀ run rest, run ≠ [] → (∀ c ∈ run, p c = true) → Clear p rest → motive rest →
      motive (run ++ rest)) (text : Text) : motive text := by
  induction size : text.length using Nat.strong_induction_on generalizing text with
  | _ n ih =>
    cases text with
    | nil => exact nil
    | cons c rest =>
      rw [List.length_cons] at size
      cases first : p c with
      | false => exact other c rest first (ih rest.length (by omega) rest rfl)
      | true =>
        obtain ⟨more, behind, rfl, all, clear⟩ := exists_run p rest
        rw [List.length_append] at size
        exact run (c :: more) behind (List.cons_ne_nil _ _) (List.forall_mem_cons.mpr ⟨first, all⟩) clear
          (ih behind.length (by omega) behind rfl)

/-! ## Neighbours -/

variable {first second : Char → Bool}

lemma hasNeighbours_eq_false_iff :
    hasNeighbours first second text = false ↔
      text.IsChain fun a b => first a = true → second b = false := by
  induction text with
  | nil => exact iff_of_true rfl .nil
  | cons a rest ih =>
    cases rest with
    | nil => exact iff_of_true rfl (.singleton a)
    | cons b rest =>
      rw [hasNeighbours, Bool.or_eq_false_iff, ih, List.isChain_cons_cons]
      simp

/-- The parts of a text have no neighbours that the text has not. -/
lemma hasNeighbours_append (none : hasNeighbours first second (text ++ rest) = false) :
    hasNeighbours first second text = false ∧ hasNeighbours first second rest = false := by
  simp only [hasNeighbours_eq_false_iff] at none ⊢
  exact ⟨none.left_of_append, none.right_of_append⟩

lemma hasNeighbours_cons (none : hasNeighbours first second (c :: rest) = false) :
    hasNeighbours first second rest = false := by
  rw [hasNeighbours_eq_false_iff] at none ⊢
  exact none.tail

/-! ## Printable characters -/

lemma isPermitted_of_isPrintable (printable : isPrintable c) : isPermitted c := by
  simp only [isPrintable, isPermitted, Bool.or_eq_true, Bool.and_eq_true, beq_iff_eq,
    decide_eq_true_eq, bne_iff_ne] at printable ⊢
  omega

lemma ne_return_of_isPrintable (printable : isPrintable c) : c ≠ '\r' := by
  rintro rfl
  cases printable

lemma isBreak_iff :
    isBreak c ↔ c = '\n' ∨ c = '\r' ∨ c = '\x85' ∨ c = '\u2028' ∨ c = '\u2029' := by
  simp only [isBreak, Bool.or_eq_true, beq_iff_eq, or_assoc]

/-- A printable break means itself. -/
lemma meaning_of_isPrintable (printable : isPrintable c) : meaning c = c := by
  have next : c ≠ '\x85' := by
    rintro rfl
    cases printable
  rw [meaning, if_neg]
  simp only [Bool.or_eq_true, beq_iff_eq, not_or]
  exact ⟨ne_return_of_isPrintable printable, next⟩

lemma not_isBreak_space : isBreak ' ' = false := by decide

/-- A printable character of a gap is a space or a break. -/
lemma isGap_of_isPrintable (printable : isPrintable c) (gap : isGap c) : c = ' ' ∨ isBreak c := by
  simp only [isGap, isBlank, Bool.or_eq_true, beq_iff_eq] at gap
  rcases gap with (rfl | rfl) | broken
  · exact .inl rfl
  · cases printable
  · exact .inr broken

lemma not_isBreak_of_not_isGap (other : isGap c = false) : isBreak c = false :=
  (Bool.or_eq_false_iff.mp other).2

/-- Where no space meets a break, a run of both is a run of one of them. -/
lemma spaces_or_breaks (gap : ∀ c ∈ text, c = ' ' ∨ isBreak c = true)
    (before : hasNeighbours isSpace isBreak text = false)
    (behind : hasNeighbours isBreak isSpace text = false) :
    (∀ c ∈ text, c = ' ') ∨ ∀ c ∈ text, isBreak c = true := by
  rw [hasNeighbours_eq_false_iff] at before behind
  induction text with
  | nil => exact .inl nofun
  | cons c rest ih =>
    obtain ⟨first, others⟩ := List.forall_mem_cons.mp gap
    cases rest with
    | nil => exact first.imp (fun eq => by simpa using eq) fun broken => by simpa using broken
    | cons d rest =>
      obtain ⟨next, before⟩ := List.isChain_cons_cons.mp before
      obtain ⟨next', behind⟩ := List.isChain_cons_cons.mp behind
      rcases ih others before behind with spaces | breaks
      · refine .inl (List.forall_mem_cons.mpr ⟨?_, spaces⟩)
        rcases first with rfl | broken
        · rfl
        · cases spaces d List.mem_cons_self
          cases next' broken
      · refine .inr (List.forall_mem_cons.mpr ⟨?_, breaks⟩)
        rcases first with rfl | broken
        · cases (next rfl).symm.trans (breaks d List.mem_cons_self)
        · exact broken

/-! ## Written values -/

lemma printable_digits (width n : Nat) : ∀ c ∈ Hex.digits width n, isPrintable c = true := by
  have digit : ∀ n < 16, isPrintable (Hex.digit n) = true := by decide
  induction width generalizing n with
  | zero => exact nofun
  | succ width ih =>
    rw [Hex.digits, List.forall_mem_append, List.forall_mem_singleton]
    exact ⟨ih _, digit _ (Nat.mod_lt n (by decide))⟩

lemma printable_doubleChar (c : Char) : ∀ d ∈ doubleChar c, isPrintable d = true := by
  have letters : ∀ e ∈ writtenEscapes, isPrintable e.2 = true := by decide
  unfold doubleChar
  split
  · rename_i letter found
    rw [List.forall_mem_cons, List.forall_mem_singleton]
    exact ⟨by decide, letters _ (mem_of_lookup found)⟩
  · split
    · rwa [List.forall_mem_singleton]
    · unfold numberEscape
      split_ifs
      all_goals
        rw [List.forall_mem_cons, List.forall_mem_cons]
        exact ⟨by decide, by decide, printable_digits _ _⟩

lemma printable_margin (needed : Bool) : ∀ c ∈ if needed then margin else [], isPrintable c = true := by
  cases needed <;> exact List.all_eq_true.mp (by decide)

lemma printable_writeSingle (printable : ∀ c ∈ text, isPrintable c = true) (broken : Bool) :
    ∀ c ∈ writeSingle broken text, isPrintable c = true := by
  induction text generalizing broken with
  | nil =>
    rw [writeSingle, List.forall_mem_append]
    exact ⟨printable_margin broken, List.forall_mem_singleton.mpr (by decide)⟩
  | cons c rest ih =>
    obtain ⟨first, others⟩ := List.forall_mem_cons.mp printable
    rw [writeSingle]
    split
    · exact List.forall_mem_cons.mpr ⟨first, ih others true⟩
    · rw [List.forall_mem_append, List.forall_mem_append]
      refine ⟨⟨printable_margin broken, ?_⟩, ih others false⟩
      split
      · exact List.all_eq_true.mp (by decide)
      · exact List.forall_mem_singleton.mpr first

lemma printable_writeLines (printable : ∀ c ∈ text, isPrintable c = true) (fresh : Bool) :
    ∀ c ∈ writeLines fresh text, isPrintable c = true := by
  induction text generalizing fresh with
  | nil => exact nofun
  | cons c rest ih =>
    obtain ⟨first, others⟩ := List.forall_mem_cons.mp printable
    rw [writeLines]
    split
    · exact List.forall_mem_cons.mpr ⟨first, ih others true⟩
    · rw [List.forall_mem_append, List.forall_mem_cons]
      exact ⟨printable_margin fresh, first, ih others false⟩

lemma printable_literalHints (text : Text) : ∀ c ∈ literalHints text, isPrintable c = true := by
  rw [literalHints, List.forall_mem_append]
  constructor
  · split <;> exact List.all_eq_true.mp (by decide)
  · split
    · exact List.all_eq_true.mp (by decide)
    · split <;> exact List.all_eq_true.mp (by decide)
    · split_ifs <;> exact List.all_eq_true.mp (by decide)

/-- Whatever a text holds, only printable characters are written. -/
lemma printable_writeText (text : Text) : ∀ c ∈ writeText text, isPrintable c = true := by
  have double : ∀ c ∈ '"' :: text.flatMap doubleChar ++ ['"'], isPrintable c = true := by
    simp only [List.cons_append, List.forall_mem_cons, List.forall_mem_append, List.mem_flatMap]
    refine ⟨by decide, ?_, by decide, List.forall_mem_nil _⟩
    rintro c ⟨d, _, mem⟩
    exact printable_doubleChar d c mem
  unfold writeText TextForm.of
  split_ifs with feed literal plain single
  · simp only [fitsLiteral, isEscapeFree, Bool.and_eq_true, List.all_eq_true] at literal
    simp only [List.cons_append, List.forall_mem_cons, List.forall_mem_append]
    exact ⟨by decide, printable_literalHints text, by decide, printable_writeLines literal.1.1 true⟩
  · exact double
  · simp only [fitsPlain, Bool.and_eq_true, List.all_eq_true] at plain
    exact plain.2.1.1.1.1.1
  · simp only [fitsSingle, isEscapeFree, Bool.and_eq_true, List.all_eq_true] at single
    exact List.forall_mem_cons.mpr ⟨by decide, printable_writeSingle single.1.1 false⟩
  · exact double

/-! ## Gaps -/

lemma gapLines_cons (other : c ≠ '\r') (rest : Text) :
    gapLines (c :: rest) =
      if isBreak c then ([], (meaning c, (gapLines rest).1) :: (gapLines rest).2)
      else (c :: (gapLines rest).1, (gapLines rest).2) := by
  rw [gapLines]
  exact fun _ eq => (other eq).elim

/-- Blanks alone are kept. -/
lemma gapLines_blanks (blank : ∀ c ∈ blanks, isBreak c = false) : gapLines blanks = (blanks, []) := by
  induction blanks with
  | nil => rfl
  | cons c rest ih =>
    obtain ⟨first, others⟩ := List.forall_mem_cons.mp blank
    have other : c ≠ '\r' := by
      rintro rfl
      cases first
    rw [gapLines_cons other, ih others, first]
    rfl

/-- Of breaks with blanks behind them the breaks are kept, whatever the blanks. -/
lemma breaks_gapLines (broken : ∀ c ∈ breaks, isPrintable c ∧ isBreak c)
    (blank : ∀ c ∈ blanks, isBreak c = false) :
    (gapLines (breaks ++ blanks)).2.map (·.1) = breaks := by
  induction breaks with
  | nil =>
    rw [List.nil_append, gapLines_blanks blank]
    rfl
  | cons c rest ih =>
    obtain ⟨⟨printable, first⟩, others⟩ := List.forall_mem_cons.mp broken
    rw [List.cons_append, gapLines_cons (ne_return_of_isPrintable printable), if_pos first,
      List.map_cons, ih others, meaning_of_isPrintable printable]

lemma foldGap_blanks (blank : ∀ c ∈ blanks, isBreak c = false) : foldGap blanks = blanks := by
  rw [foldGap, gapLines_blanks blank]

/-- A gap that holds breaks becomes what is left of its breaks. -/
lemma foldGap_of_lines {gap : Text} (lines : (gapLines gap).2 ≠ []) :
    foldGap gap = foldBreaks ((gapLines gap).2.map (·.1)) := by
  obtain ⟨line, more, eq⟩ := List.exists_cons_of_ne_nil lines
  have pair : gapLines gap = ((gapLines gap).1, line :: more) := by rw [← eq]
  rw [eq, foldGap, pair]

/-- Breaks that begin with no line feed stay as they are, and the blanks behind them go. -/
lemma foldGap_breaks (nonempty : breaks ≠ []) (feed : '\n' ∉ breaks)
    (broken : ∀ c ∈ breaks, isPrintable c ∧ isBreak c) (blank : ∀ c ∈ blanks, isBreak c = false) :
    foldGap (breaks ++ blanks) = breaks := by
  have kept := breaks_gapLines broken blank
  have lines : (gapLines (breaks ++ blanks)).2 ≠ [] := by
    intro none
    rw [none] at kept
    exact nonempty kept.symm
  rw [foldGap_of_lines lines, kept]
  unfold foldBreaks
  split
  · exact (feed List.mem_cons_self).elim
  · exact (feed List.mem_cons_self).elim
  · rfl

end FilterEditor.Yaml
