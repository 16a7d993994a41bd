import FilterEditor.Proofs.Printable
import FilterEditor.Yaml.Block

/-!
# Literal blocks read back

A text over several lines falls into the breaks before its first line, its lines, each with the breaks
behind it, and the breaks at its end (`Lines`). The header that the writer chooses says how many of the last
ones to keep (`Chomp.Fits`), so that joining the lines gives the text again (`Lines.join`). The reader finds
these lines in what is written, as each begins behind the margin and nothing that follows the block is
indented (`Lines.read`).
-/

namespace FilterEditor.Yaml

variable {c : Char} {fuel column widest : Nat} {limit : Option Nat} {chomp : Chomp}
  {text body ends content breaks rest next : Text} {lines : List BlockLine}

/-! ## Indentation -/

lemma indentation?_cons (other : c ≠ '\r') (rest : Text) :
    indentation? limit column widest (c :: rest) =
      if limit.all (column < ·) && c == ' ' then indentation? limit (column + 1) widest rest
      else if limit.all (column < ·) && c == '\t' then none
      else if isBreak c then
        (indentation? limit 0 (max widest column) rest).map fun i =>
          { i with breaks := meaning c :: i.breaks }
      else some ⟨[], column, max widest column, c :: rest⟩ := by
  rw [indentation?]
  exact fun _ eq => (other eq).elim

/-- Breaks are skipped and remembered. -/
lemma indentation?_breaks (broken : ∀ c ∈ breaks, isPrintable c ∧ isBreak c) (rest : Text) :
    indentation? limit 0 0 (breaks ++ rest) =
      (indentation? limit 0 0 rest).map fun i => { i with breaks := breaks ++ i.breaks } := by
  induction breaks with
  | nil => exact Option.map_id'.symm
  | cons c more ih =>
    obtain ⟨⟨printable, first⟩, others⟩ := List.forall_mem_cons.mp broken
    have space : c ≠ ' ' := by
      rintro rfl
      cases first
    have tab : c ≠ '\t' := by
      rintro rfl
      cases first
    rw [List.cons_append, indentation?_cons (ne_return_of_isPrintable printable), if_neg (by simp [space]),
      if_neg (by simp [tab]), if_pos first, Nat.max_self, ih others, Option.map_map,
      meaning_of_isPrintable printable]
    rfl

/-- A line begins at the first character that breaks none, be it that no blank may be skipped any more or
that it is no blank. -/
lemma indentation?_line (unbroken : isBreak c = false)
    (stops : limit.all (column < ·) = true → isBlank c = false) (rest : Text) :
    indentation? limit column widest (c :: rest) = some ⟨[], column, max widest column, c :: rest⟩ := by
  have other : c ≠ '\r' := by
    rintro rfl
    cases unbroken
  rw [indentation?_cons other, if_neg, if_neg, if_neg (Bool.eq_false_iff.mp unbroken)]
  · rw [Bool.and_eq_true, beq_iff_eq]
    rintro ⟨inside, rfl⟩
    cases stops inside
  · rw [Bool.and_eq_true, beq_iff_eq]
    rintro ⟨inside, rfl⟩
    cases stops inside

lemma indentation?_clear (clear : Clear isGap rest) :
    indentation? limit column widest rest = some ⟨[], column, max widest column, rest⟩ := by
  cases rest with
  | nil => rw [indentation?]
  | cons c rest =>
    obtain ⟨blank, unbroken⟩ := Bool.or_eq_false_iff.mp (clear_cons_iff.mp clear)
    exact indentation?_line unbroken (fun _ => blank) rest

lemma indentation?_space (inside : limit.all (column < ·) = true) (rest : Text) :
    indentation? limit column widest (' ' :: rest) = indentation? limit (column + 1) widest rest := by
  rw [indentation?_cons (by decide), inside]
  rfl

/-- The margin is skipped, and no more where no more may be skipped. -/
lemma indentation?_margin (unbroken : isBreak c = false) (rest : Text)
    (shown : limit = some 2 ∨ limit = none ∧ isBlank c = false) :
    indentation? limit 0 0 (margin ++ c :: rest) = some ⟨[], 2, 2, c :: rest⟩ := by
  have inside : limit.all (0 < ·) = true ∧ limit.all (1 < ·) = true := by
    rcases shown with rfl | ⟨rfl, _⟩ <;> exact ⟨rfl, rfl⟩
  have stops : limit.all (2 < ·) = true → isBlank c = false := by
    rcases shown with rfl | ⟨rfl, blank⟩
    · exact nofun
    · exact fun _ => blank
  show indentation? limit 0 0 (' ' :: ' ' :: c :: rest) = _
  rw [indentation?_space inside.1, indentation?_space inside.2]
  exact indentation?_line unbroken stops rest

/-! ## What is written -/

lemma writeLines_breaks (broken : ∀ c ∈ breaks, isBreak c = true) (rest : Text) :
    writeLines true (breaks ++ rest) = breaks ++ writeLines true rest := by
  induction breaks with
  | nil => rfl
  | cons c more ih =>
    obtain ⟨first, others⟩ := List.forall_mem_cons.mp broken
    rw [List.cons_append, writeLines, if_pos first, ih others, List.cons_append]

/-- A line and the breaks behind it are written as they are. -/
lemma writeLines_line (unbroken : ∀ c ∈ content, isBreak c = false)
    (broken : ∀ d ∈ c :: breaks, isBreak d = true) (rest : Text) :
    writeLines false (content ++ c :: (breaks ++ rest)) =
      content ++ c :: (breaks ++ writeLines true rest) := by
  induction content with
  | nil =>
    obtain ⟨first, others⟩ := List.forall_mem_cons.mp broken
    rw [List.nil_append, writeLines, if_pos first, writeLines_breaks others]
    rfl
  | cons d more ih =>
    obtain ⟨first, others⟩ := List.forall_mem_cons.mp unbroken
    rw [List.cons_append, writeLines, first, if_neg Bool.false_ne_true, if_neg Bool.false_ne_true,
      ih others]
    rfl

/-- A last line is written as it is. -/
lemma writeLines_content (unbroken : ∀ c ∈ content, isBreak c = false) :
    writeLines false content = content := by
  induction content with
  | nil => rfl
  | cons c more ih =>
    obtain ⟨first, others⟩ := List.forall_mem_cons.mp unbroken
    rw [writeLines, first, if_neg Bool.false_ne_true, if_neg Bool.false_ne_true, ih others]
    rfl

lemma writeLines_margin (unbroken : isBreak c = false) (rest : Text) :
    writeLines true (c :: rest) = margin ++ writeLines false (c :: rest) := by
  rw [writeLines, writeLines, unbroken]
  rfl

lemma length_le_writeLines (fresh : Bool) (text : Text) : text.length ≤ (writeLines fresh text).length := by
  induction text generalizing fresh with
  | nil => exact Nat.zero_le _
  | cons c rest ih =>
    rw [writeLines]
    split
    · exact Nat.succ_le_succ (ih true)
    · have behind := ih false
      rw [List.length_append, List.length_cons, List.length_cons]
      omega

lemma getLast?_writeLines (fresh : Bool) (text : Text) :
    (writeLines fresh text).getLast? = text.getLast? := by
  induction text generalizing fresh with
  | nil => rfl
  | cons c rest ih =>
    rw [writeLines]
    split
    · rw [List.getLast?_cons, List.getLast?_cons, ih]
    · rw [List.getLast?_append, List.getLast?_cons, List.getLast?_cons, ih]
      rfl

/-! ## Lines -/

/-- A line that ends a text, with the breaks at the end; the line feed behind a value ends a line that no
break follows. -/
def lastLine (content : Text) : Text → BlockLine
  | [] => ⟨content, ['\n'], []⟩
  | c :: breaks => ⟨content, [c], breaks⟩

/-- The lines of a text that begins with one and ends in given breaks. -/
inductive Lines (ends : Text) : Text → List BlockLine → Prop
  | last {content : Text} (nonempty : content ≠ []) (unbroken : ∀ c ∈ content, isBreak c = false) :
      Lines ends (content ++ ends) [lastLine content ends]
  | more {content breaks rest : Text} {c : Char} {lines : List BlockLine} (nonempty : content ≠ [])
      (unbroken : ∀ c ∈ content, isBreak c = false)
      (broken : ∀ d ∈ c :: breaks, isPrintable d ∧ isBreak d) :
      Lines ends rest lines →
      Lines ends (content ++ c :: (breaks ++ rest)) (⟨content, [c], breaks⟩ :: lines)

namespace Lines

lemma clear (h : Lines ends text lines) : text ≠ [] ∧ Clear isBreak text := by
  cases h with
  | last nonempty unbroken | more nonempty unbroken =>
    obtain ⟨c, more, rfl⟩ := List.exists_cons_of_ne_nil nonempty
    exact ⟨List.cons_ne_nil _ _, clear_cons_iff.mpr (unbroken c List.mem_cons_self)⟩

lemma ne_nil (h : Lines ends text lines) : lines ≠ [] := by cases h <;> exact List.cons_ne_nil _ _

/-- Before the breaks at the end stands the end of a line. -/
lemma exists_body (h : Lines ends text lines) :
    ∃ body, text = body ++ ends ∧ body ≠ [] ∧ body.getLast?.any isBreak = false := by
  induction h with
  | @last content nonempty unbroken =>
    refine ⟨content, rfl, nonempty, ?_⟩
    rw [List.getLast?_eq_some_getLast nonempty]
    exact unbroken _ (List.getLast_mem nonempty)
  | @more content breaks rest c _ _ _ _ _ ih =>
    obtain ⟨body, rfl, nonempty, last⟩ := ih
    refine ⟨content ++ c :: (breaks ++ body), by simp, by simp, ?_⟩
    rw [List.getLast?_eq_some_getLast nonempty] at last
    simpa [List.getLast?_append, List.getLast?_cons, List.getLast?_eq_some_getLast nonempty] using last

/-- Every text that begins with a line falls into lines. -/
lemma exists_of_clear (printable : ∀ c ∈ text, isPrintable c = true) (nonempty : text ≠ [])
    (clear : Clear isBreak text) :
    ∃ ends lines, Lines ends text lines ∧ ∀ c ∈ ends, isBreak c = true := by
  induction size : text.length using Nat.strong_induction_on generalizing text with
  | _ n ih =>
    obtain ⟨content, behind, rfl, unbroken, clearBehind⟩ := exists_run (fun c => !isBreak c) text
    obtain ⟨breaks, rest, rfl, broken, clearRest⟩ := exists_run isBreak behind
    have unbroken : ∀ c ∈ content, isBreak c = false := fun c mem => by simpa using unbroken c mem
    have line : content ≠ [] := by
      rintro rfl
      exact nonempty (eq_nil_of_clear clear clearBehind)
    by_cases last : rest = []
    · subst last
      rw [List.append_nil]
      exact ⟨breaks, _, .last line unbroken, broken⟩
    · have some := List.length_pos_iff.mpr line
      simp only [List.length_append] at size
      have printable' : ∀ c ∈ rest, isPrintable c = true :=
        fun c mem => printable c (List.mem_append_right _ (List.mem_append_right _ mem))
      obtain ⟨ends, lines, found, ended⟩ := ih rest.length (by omega) printable' last clearRest rfl
      obtain ⟨c, more, rfl⟩ : ∃ c more, breaks = c :: more := by
        apply List.exists_cons_of_ne_nil
        rintro rfl
        exact last (eq_nil_of_clear clearRest clearBehind)
      refine ⟨ends, _, .more line unbroken (fun d mem => ⟨printable d ?_, broken d mem⟩) found, ended⟩
      exact List.mem_append_right _ (List.mem_append_left _ mem)

end Lines

/-! ## Breaks at the end -/

/-- The choice that keeps the breaks at the end of a text as they are, given what stands before them. -/
inductive Chomp.Fits : Text → Text → Chomp → Prop
  | strip {body : Text} : Fits body [] .strip
  | clip {body : Text} {c : Char} (line : body ≠ []) : Fits body [c] .clip
  | keep {body ends : Text} (nonempty : ends ≠ []) : Fits body ends .keep

lemma Chomp.Fits.apply (fits : Chomp.Fits body ends chomp) (content : Text) :
    chomp.apply (lastLine content ends) = ends := by
  cases fits with
  | strip => rfl
  | clip => rfl
  | keep nonempty =>
    obtain ⟨c, breaks, rfl⟩ := List.exists_cons_of_ne_nil nonempty
    rfl

/-- Lines are joined to their text. -/
lemma Lines.join (h : Lines ends text lines) (fits : Chomp.Fits body ends chomp) :
    joinLines true chomp lines = text := by
  induction h with
  | @last content =>
    have same : (lastLine content ends).content = content := by cases ends <;> rfl
    rw [joinLines, fits.apply, same]
  | more _ _ _ behind ih =>
    obtain ⟨next, rest, rfl⟩ := List.exists_cons_of_ne_nil behind.ne_nil
    rw [joinLines, ih]
    simp [between]

/-! ## Headers -/

/-- How a choice is written. -/
def Chomp.mark : Chomp → Text
  | strip => ['-']
  | clip => []
  | keep => ['+']

/-- Whether the first line of a text does not show the indentation. -/
def hidesMargin (text : Text) : Bool := text.head?.any fun c => isSpace c || isBreak c

/-- The header names the choice that fits. -/
lemma literalHints_eq (broken : ∀ c ∈ ends, isBreak c = true) (last : body.getLast?.any isBreak = false)
    (nonempty : body ++ ends ≠ []) :
    ∃ chomp, Chomp.Fits body ends chomp ∧
      literalHints (body ++ ends) =
        (if hidesMargin (body ++ ends) then ['2'] else []) ++ chomp.mark := by
  rcases List.eq_nil_or_concat ends with rfl | ⟨ends, c, rfl⟩
  · -- The text ends in a line.
    refine ⟨.strip, .strip, ?_⟩
    rw [List.append_nil] at nonempty ⊢
    obtain ⟨body, d, rfl⟩ := (List.eq_nil_or_concat body).resolve_left nonempty
    rw [List.concat_eq_append] at last ⊢
    have line : isBreak d = false := by simpa using last
    rw [literalHints, List.reverse_append, List.reverse_singleton, List.singleton_append]
    cases body.reverse <;> simp [line, Chomp.mark, hidesMargin]
  · rw [List.concat_eq_append] at broken ⊢
    have first : isBreak c = true := broken c (List.mem_append_right _ List.mem_cons_self)
    rcases List.eq_nil_or_concat ends with rfl | ⟨ends, d, rfl⟩
    · rcases List.eq_nil_or_concat body with rfl | ⟨body, d, rfl⟩
      · refine ⟨.keep, .keep (List.cons_ne_nil _ _), ?_⟩
        simp [literalHints, first, Chomp.mark, hidesMargin]
      · refine ⟨.clip, .clip (by simp), ?_⟩
        have line : isBreak d = false := by simpa using last
        simp [literalHints, first, line, Chomp.mark, hidesMargin]
    · refine ⟨.keep, .keep (by simp), ?_⟩
      have second : isBreak d = true := broken d (by simp)
      simp [literalHints, first, second, Chomp.mark, hidesMargin]

lemma blockHeader?_hints (hidden : Bool) (chomp : Chomp) (rest : Text) :
    blockHeader? ((if hidden then ['2'] else []) ++ chomp.mark ++ '\n' :: rest) =
      some (⟨chomp, if hidden then some 2 else none⟩, '\n' :: rest) := by
  cases hidden <;> cases chomp <;> rfl

/-! ## Reading -/

/-- The break behind a value that does not end in one. -/
def closing (text : Text) : Text := if text.getLast?.any isBreak then [] else ['\n']

/-- With it, every value ends in a break. -/
lemma closing_ends (text : Text) : (text ++ closing text).getLast?.any isBreak = true := by
  rw [closing]
  split
  · rename_i ends
    rwa [List.append_nil]
  · rw [List.getLast?_concat]
    rfl

/-- Behind a value that ends in no break stands a line feed. -/
lemma closing_of_last (last : text.getLast?.any isBreak = false) : closing text = ['\n'] := by
  rw [closing, last]
  rfl

lemma closing_append (broken : ∀ c ∈ ends, isBreak c = true) (last : body.getLast?.any isBreak = false) :
    closing (body ++ ends) = if ends = [] then ['\n'] else [] := by
  by_cases none : ends = []
  · subst none
    rw [List.append_nil, closing, last]
    rfl
  · have final : ends.getLast? = some (ends.getLast none) := List.getLast?_eq_some_getLast none
    rw [closing, List.getLast?_append, final, if_neg none]
    simp [broken _ (List.getLast_mem none)]

/-- A line is read up to its break, and the lines behind it after what stands before them. -/
lemma blockLines_line {i : Indentation} (unbroken : ∀ c ∈ content, isBreak c = false)
    (printable : isPrintable c) (broken : isBreak c) (found : indentation? (some 2) 0 0 rest = some i) :
    blockLines 2 (fuel + 1) 2 (content ++ c :: rest) =
      (blockLines 2 fuel i.column i.rest).map fun r => (⟨content, [c], i.breaks⟩ :: r.1, r.2) := by
  have clear : Clear (fun c => !isBreak c) (c :: rest) := clear_cons_iff.mpr (by simpa using broken)
  have unbroken : ∀ c ∈ content, (!isBreak c) = true := fun c mem => by simpa using unbroken c mem
  have breaks : takeBreak (c :: rest) = ([c], rest) := by
    rw [takeBreak, if_pos broken, meaning_of_isPrintable printable]
    exact fun _ eq => (ne_return_of_isPrintable printable eq).elim
  rw [blockLines, if_pos ⟨rfl, by simp⟩, dropLine, takeWhile_run unbroken clear,
    dropWhile_run unbroken clear, breaks]
  dsimp only
  rw [found, Option.bind_eq_bind, Option.bind_some]
  cases blockLines 2 fuel i.column i.rest <;> rfl

/-- Lines begin behind the margin. -/
lemma Lines.start (h : Lines ends text lines)
    (shown : limit = some 2 ∨ limit = none ∧ Clear isBlank text) (rest : Text) :
    indentation? limit 0 0 (writeLines true text ++ rest) =
      some ⟨[], 2, 2, writeLines false text ++ rest⟩ := by
  obtain ⟨nonempty, clear⟩ := h.clear
  obtain ⟨c, more, rfl⟩ := List.exists_cons_of_ne_nil nonempty
  have unbroken := clear_cons_iff.mp clear
  have first : writeLines false (c :: more) = c :: writeLines false more := by
    rw [writeLines, unbroken]
    rfl
  rw [writeLines_margin unbroken, first, List.append_assoc, List.cons_append]
  exact indentation?_margin unbroken _ (shown.imp_right (And.imp_right clear_cons_iff.mp))

/-- What is not indented ends the lines. -/
lemma blockLines_over (rest : Text) : blockLines 2 (fuel + 1) 0 rest = some ([], rest) := by
  rw [blockLines, if_neg (by simp)]

/-- The lines of a text are read from what is written for it. -/
lemma Lines.read (h : Lines ends text lines) (broken : ∀ c ∈ ends, isPrintable c ∧ isBreak c)
    (clear : Clear isGap next) (enough : text.length < fuel) :
    blockLines 2 fuel 2 (writeLines false text ++ (if ends = [] then ['\n'] else []) ++ next) =
      some (lines, next) := by
  induction h generalizing fuel with
  | @last content nonempty unbroken =>
    have some := List.length_pos_iff.mpr nonempty
    rw [List.length_append] at enough
    obtain ⟨fuel, rfl⟩ : ∃ less, fuel = less + 2 := ⟨fuel - 2, by omega⟩
    cases ends with
    | nil =>
      rw [List.append_nil, writeLines_content unbroken, if_pos rfl, List.append_assoc]
      show blockLines 2 (fuel + 2) 2 (content ++ '\n' :: next) = _
      rw [blockLines_line unbroken (by decide) (by decide) (indentation?_clear clear), blockLines_over]
      rfl
    | cons c breaks =>
      obtain ⟨first, others⟩ := List.forall_mem_cons.mp broken
      have written := writeLines_line unbroken (fun d mem => (broken d mem).2) []
      have found : indentation? (.some 2) 0 0 (breaks ++ next) = .some ⟨breaks, 0, 0, next⟩ := by
        rw [indentation?_breaks others, indentation?_clear clear, Option.map_some, List.append_nil,
          Nat.max_self]
      rw [List.append_nil, writeLines, List.append_nil] at written
      rw [written, if_neg (List.cons_ne_nil _ _), List.append_nil, List.append_assoc, List.cons_append,
        blockLines_line unbroken first.1 first.2 found, blockLines_over]
      rfl
  | @more content breaks rest c lines nonempty unbroken broken behind ih =>
    simp only [List.length_append, List.length_cons] at enough
    obtain ⟨fuel, rfl⟩ : ∃ less, fuel = less + 1 := ⟨fuel - 1, by omega⟩
    obtain ⟨first, others⟩ := List.forall_mem_cons.mp broken
    have found (tail : Text) : indentation? (some 2) 0 0 (breaks ++ (writeLines true rest ++ tail)) =
        some ⟨breaks, 2, 2, writeLines false rest ++ tail⟩ := by
      rw [indentation?_breaks others, behind.start (.inl rfl), Option.map_some, List.append_nil]
    rw [writeLines_line unbroken fun d mem => (broken d mem).2]
    simp only [List.append_assoc, List.cons_append] at ih ⊢
    rw [blockLines_line unbroken first.1 first.2 (found _), ih (by omega)]
    rfl

/-- A block is read by its header, what stands before its first line and its lines. -/
lemma block?_of_lines (hidden : Bool) {start : Indentation}
    (found : indentation? (if hidden then some 2 else none) 0 0 rest = some start)
    (shown : hidden = false → start.widest = 2)
    (read : blockLines 2 (rest.length + 1) start.column start.rest = some (lines, next)) :
    block? true 1 ((if hidden then ['2'] else []) ++ chomp.mark ++ '\n' :: rest) =
      some ((if lines.isEmpty ∧ chomp ≠ .keep then [] else start.breaks) ++ joinLines true chomp lines,
        next) := by
  have ends : lineEnd? ('\n' :: rest) = some rest := rfl
  have limit : (if hidden then some 2 else none : Option Nat).map (· + (1 - 1)) =
      if hidden then some 2 else none := by
    cases hidden <;> rfl
  have indent : (if hidden then some 2 else none : Option Nat).getD (max (max start.widest 1) 1) = 2 := by
    cases hidden with
    | true => rfl
    | false => rw [shown rfl]; rfl
  rw [block?, blockHeader?_hints, Option.bind_eq_bind, Option.bind_some]
  dsimp only
  rw [ends, Option.bind_eq_bind, Option.bind_some, limit, found, Option.bind_eq_bind, Option.bind_some,
    indent, read]
  rfl

/-- Where nothing but breaks is written, all are kept. -/
lemma block?_breaks (broken : ∀ c ∈ breaks, isPrintable c ∧ isBreak c) (nonempty : breaks ≠ [])
    (clear : Clear isGap next) :
    block? true 1 (literalHints breaks ++ '\n' :: (writeLines true breaks ++ (closing breaks ++ next))) =
      some (breaks, next) := by
  have all : ∀ c ∈ breaks, isBreak c = true := fun c mem => (broken c mem).2
  obtain ⟨chomp, fits, hints⟩ := @literalHints_eq [] breaks all rfl nonempty
  have kept : chomp = .keep := by
    cases fits with
    | strip => exact (nonempty rfl).elim
    | clip line => exact (line rfl).elim
    | keep => rfl
  have hidden : hidesMargin breaks = true := by
    obtain ⟨c, more, rfl⟩ := List.exists_cons_of_ne_nil nonempty
    simp [hidesMargin, all c List.mem_cons_self]
  have written : writeLines true breaks ++ (closing breaks ++ next) = breaks ++ next := by
    have ended := @closing_append [] breaks all rfl
    have lines := writeLines_breaks all []
    rw [List.append_nil, writeLines, List.append_nil] at lines
    rw [List.nil_append, if_neg nonempty] at ended
    rw [lines, ended, List.nil_append]
  have found : indentation? (some 2) 0 0 (breaks ++ next) = some ⟨breaks, 0, 0, next⟩ := by
    rw [indentation?_breaks broken, indentation?_clear clear, Option.map_some, List.append_nil,
      Nat.max_self]
  rw [List.nil_append, hidden] at hints
  rw [hints, written, block?_of_lines true found (fun eq => by cases eq) (blockLines_over next), kept]
  simp [joinLines]

/-- Where the first line shows the margin, no break stands before it and it begins with no blank. -/
lemma clear_isBlank (printable : ∀ c ∈ text, isPrintable c = true) (shown : hidesMargin text = false) :
    Clear isBlank text ∧ Clear isBreak text := by
  cases text with
  | nil => exact ⟨clear_nil, clear_nil⟩
  | cons c rest =>
    obtain ⟨space, unbroken⟩ := Bool.or_eq_false_iff.mp shown
    refine ⟨clear_cons_iff.mpr ?_, clear_cons_iff.mpr unbroken⟩
    rw [isBlank, Bool.or_eq_false_iff]
    refine ⟨space, beq_eq_false_iff_ne.mpr ?_⟩
    rintro rfl
    cases printable _ List.mem_cons_self

/-- The header shows the margin of the first line, behind the breaks before it. -/
lemma Lines.start_behind (h : Lines ends rest lines) (broken : ∀ c ∈ breaks, isPrintable c ∧ isBreak c)
    (printable : ∀ c ∈ breaks ++ rest, isPrintable c = true) (tail : Text) :
    indentation? (if hidesMargin (breaks ++ rest) then some 2 else none) 0 0
        (writeLines true (breaks ++ rest) ++ tail) =
      some ⟨breaks, 2, 2, writeLines false rest ++ tail⟩ := by
  have shown : (if hidesMargin (breaks ++ rest) then some 2 else none) = some 2 ∨
      (if hidesMargin (breaks ++ rest) then some 2 else none) = none ∧ Clear isBlank rest := by
    cases hidden : hidesMargin (breaks ++ rest) with
    | true => exact .inl rfl
    | false =>
      obtain ⟨blank, unbroken⟩ := clear_isBlank printable hidden
      cases breaks with
      | nil => exact .inr ⟨rfl, blank⟩
      | cons c more =>
        cases (clear_cons_iff.mp unbroken).symm.trans (broken c List.mem_cons_self).2
  rw [writeLines_breaks fun c mem => (broken c mem).2, List.append_assoc, indentation?_breaks broken,
    h.start shown, Option.map_some, List.append_nil]

/-- What is written as a literal block is read as the text, if nothing behind it is indented. -/
lemma block?_written (printable : ∀ c ∈ text, isPrintable c = true) (nonempty : text ≠ [])
    (clear : Clear isGap next) :
    block? true 1 (literalHints text ++ '\n' :: (writeLines true text ++ (closing text ++ next))) =
      some (text, next) := by
  obtain ⟨breaks, rest, rfl, all, starts⟩ := exists_run isBreak text
  have broken : ∀ c ∈ breaks, isPrintable c ∧ isBreak c :=
    fun c mem => ⟨printable c (List.mem_append_left _ mem), all c mem⟩
  by_cases blank : rest = []
  · subst blank
    rw [List.append_nil] at nonempty ⊢
    exact block?_breaks broken nonempty clear
  obtain ⟨ends, lines, found, ended⟩ :=
    Lines.exists_of_clear (fun c mem => printable c (List.mem_append_right _ mem)) blank starts
  obtain ⟨body, eq, line, last⟩ := found.exists_body
  have same : breaks ++ rest = breaks ++ body ++ ends := by rw [eq, List.append_assoc]
  have last : (breaks ++ body).getLast?.any isBreak = false := by
    rw [List.getLast?_eq_some_getLast line] at last
    rwa [List.getLast?_append, List.getLast?_eq_some_getLast line]
  obtain ⟨chomp, fits, hints⟩ := literalHints_eq ended last (same ▸ nonempty)
  have closed := closing_append ended last
  rw [← same] at hints closed
  have start := found.start_behind broken printable (closing (breaks ++ rest) ++ next)
  have read : blockLines 2
      ((writeLines true (breaks ++ rest) ++ (closing (breaks ++ rest) ++ next)).length + 1) 2
      (writeLines false rest ++ (closing (breaks ++ rest) ++ next)) = some (lines, next) := by
    have long := length_le_writeLines true (breaks ++ rest)
    rw [closed, ← List.append_assoc (writeLines false rest)]
    apply found.read (fun c mem => ⟨printable c ?_, ended c mem⟩) clear
    · simp only [List.length_append] at long ⊢
      omega
    · rw [eq]
      exact List.mem_append_right _ (List.mem_append_right _ mem)
  rw [hints, block?_of_lines _ start (fun _ => rfl) read, found.join fits]
  simp [found.ne_nil]

end FilterEditor.Yaml
