import FilterEditor.Proofs.Percent
import FilterEditor.Proofs.Printable
import FilterEditor.Yaml.Quoted
import Mathlib.Algebra.Group.Nat.Defs

/-!
# Quoted scalars read back

A text between quotes is written as single characters, doubled quotes, escapes and gaps. `Quote.Spells` says
which texts are written so, with the closing quote, and the reader gives the text of each of them, whatever
follows it (`quoted?_of_spells`). Both writers stay within this: between single quotes a gap holds only
spaces or only breaks, which the margin behind them sets apart from a marker of a document
(`spells_writeSingle`), and between double quotes every break is an escape (`spells_double`).
-/

namespace FilterEditor.Yaml

variable {quote : Quote} {c : Char} {fuel n : Nat} {text written escape rest tail gap : Text}

/-- The texts that stand for a text behind a quote, with the closing quote. -/
inductive Quote.Spells (quote : Quote) : Text → Text → Prop
  | close : Spells quote [] [quote.mark]
  | plain {c : Char} {text written : Text} (other : isGap c = false) (mark : c ≠ quote.mark)
      (backslash : quote = .double → c ≠ '\\') : Spells quote text written →
      Spells quote (c :: text) (c :: written)
  | doubled {text written : Text} (single : quote = .single) : Spells quote text written →
      Spells quote ('\'' :: text) ('\'' :: '\'' :: written)
  | escaped {c e : Char} {escape text written : Text} (double : quote = .double)
      (unbroken : isBreak e = false)
      (read : ∀ rest, escape? (e :: escape ++ rest) = some (c, rest)) : Spells quote text written →
      Spells quote (c :: text) ('\\' :: e :: escape ++ written)
  | gap {gap text written : Text} (nonempty : gap ≠ []) (all : ∀ c ∈ gap, isGap c = true)
      (clear : Clear isGap written) (inside : gap.getLast?.any isBreak = false) :
      Spells quote text written → Spells quote (foldGap gap ++ text) (gap ++ written)

/-! ## Reading -/

lemma not_isGap_mark (quote : Quote) : isGap quote.mark = false := by cases quote <;> decide

lemma quotedFrom_gap (fuel : Nat) (nonempty : gap ≠ []) (all : ∀ c ∈ gap, isGap c = true)
    (clear : Clear isGap rest) (inside : gap.getLast?.any isBreak = false) :
    quotedFrom quote (fuel + 1) (gap ++ rest) =
      (quotedFrom quote fuel rest).map fun r => (foldGap gap ++ r.1, r.2) := by
  have run := takeWhile_run all clear
  have behind := dropWhile_run all clear
  obtain ⟨c, more, rfl⟩ := List.exists_cons_of_ne_nil nonempty
  have first := all c List.mem_cons_self
  rw [List.cons_append, List.dropWhile_cons_of_pos first] at behind
  have marker : meetsMarker (c :: more) rest = false := by rw [meetsMarker, inside, Bool.false_and]
  rw [List.cons_append] at run ⊢
  rw [quotedFrom.eq_def]
  dsimp only
  rw [if_pos first, run, behind, if_neg (Bool.eq_false_iff.mp marker)]

lemma quotedFrom_plain (fuel : Nat) (other : isGap c = false) (mark : c ≠ quote.mark)
    (backslash : quote = .double → c ≠ '\\') (rest : Text) :
    quotedFrom quote (fuel + 1) (c :: rest) =
      (quotedFrom quote fuel rest).map fun r => (c :: r.1, r.2) := by
  have escape : (c == '\\' && quote == .double) = false := by
    rw [Bool.and_eq_false_iff, beq_eq_false_iff_ne, beq_eq_false_iff_ne]
    by_cases double : quote = .double
    · exact .inl (backslash double)
    · exact .inr double
  rw [quotedFrom.eq_def]
  dsimp only
  rw [if_neg (Bool.eq_false_iff.mp other), if_neg (by simpa using mark),
    if_neg (Bool.eq_false_iff.mp escape)]

/-- The closing quote ends the scalar; between single quotes none may follow it. -/
lemma quotedFrom_close (fuel : Nat) (alone : quote = .single → tail.head? ≠ some '\'') :
    quotedFrom quote (fuel + 1) (quote.mark :: tail) = some ([], tail) := by
  rw [quotedFrom.eq_def]
  dsimp only
  rw [if_neg (Bool.eq_false_iff.mp (not_isGap_mark quote)), if_pos (beq_self_eq_true _)]
  split
  · exact (alone rfl rfl).elim
  · rfl

lemma quotedFrom_doubled (fuel : Nat) (rest : Text) :
    quotedFrom .single (fuel + 1) ('\'' :: '\'' :: rest) =
      (quotedFrom .single fuel rest).map fun r => ('\'' :: r.1, r.2) := by
  rw [quotedFrom.eq_def]
  rfl

lemma quotedFrom_escaped (fuel : Nat) {e : Char} (unbroken : isBreak e = false) (escape rest : Text)
    (read : escape? (e :: escape ++ rest) = some (c, rest)) :
    quotedFrom .double (fuel + 1) ('\\' :: e :: escape ++ rest) =
      (quotedFrom .double fuel rest).map fun r => (c :: r.1, r.2) := by
  have follows : (e :: escape ++ rest).head?.any isBreak = false := unbroken
  rw [List.cons_append, quotedFrom.eq_def]
  dsimp only
  rw [if_neg (by decide), if_neg (by decide), if_pos (by decide), follows, if_neg Bool.false_ne_true, read]
  rfl

lemma Quote.Spells.ne_nil (h : quote.Spells text written) : written ≠ [] := by
  cases h with
  | gap nonempty => exact fun none => nonempty (List.append_eq_nil_iff.mp none).1
  | _ => exact List.cons_ne_nil _ _

lemma Quote.Spells.getLast? (h : quote.Spells text written) :
    written.getLast? = some quote.mark := by
  induction h with
  | close => rfl
  | plain _ _ _ _ ih => rw [List.getLast?_cons, ih]; rfl
  | doubled _ _ ih => rw [List.getLast?_cons, List.getLast?_cons, ih]; rfl
  | escaped _ _ _ _ ih => rw [List.getLast?_append, ih]; rfl
  | gap _ _ _ _ _ ih => rw [List.getLast?_append, ih]; rfl

/-- Fuel for a text that is not empty is enough for a step. -/
lemma exists_fuel (nonempty : written ≠ []) (enough : written.length ≤ fuel) : ∃ less, fuel = less + 1 := by
  have some := List.length_pos_iff.mpr nonempty
  exact ⟨fuel - 1, by omega⟩

/-- A quoted scalar is read up to its closing quote. Every step takes a character at least, so the length of
what is written is fuel enough. -/
lemma Quote.Spells.read (h : quote.Spells text written) (enough : written.length ≤ fuel)
    (alone : quote = .single → tail.head? ≠ some '\'') :
    quotedFrom quote fuel (written ++ tail) = some (text, tail) := by
  induction h generalizing fuel with
  | close =>
    obtain ⟨fuel, rfl⟩ := exists_fuel (List.cons_ne_nil _ _) enough
    exact quotedFrom_close fuel alone
  | plain other mark backslash _ ih =>
    obtain ⟨fuel, rfl⟩ := exists_fuel (List.cons_ne_nil _ _) enough
    rw [List.cons_append, quotedFrom_plain fuel other mark backslash, ih (Nat.le_of_succ_le_succ enough)]
    rfl
  | doubled single _ ih =>
    subst single
    obtain ⟨fuel, rfl⟩ := exists_fuel (List.cons_ne_nil _ _) enough
    rw [List.length_cons, List.length_cons] at enough
    rw [List.cons_append, List.cons_append, quotedFrom_doubled fuel, ih (by omega)]
    rfl
  | @escaped c e escape text written double unbroken read _ ih =>
    subst double
    obtain ⟨fuel, rfl⟩ := exists_fuel (List.cons_ne_nil _ _) enough
    simp only [List.length_cons, List.length_append] at enough
    rw [List.append_assoc, quotedFrom_escaped fuel unbroken escape _ (read _), ih (by omega)]
    rfl
  | @gap gap text written nonempty all clear inside h ih =>
    have some := List.length_pos_iff.mpr nonempty
    obtain ⟨fuel, rfl⟩ := exists_fuel (Quote.Spells.gap nonempty all clear inside h).ne_nil enough
    rw [List.length_append] at enough
    rw [List.append_assoc, quotedFrom_gap fuel nonempty all (clear.append h.ne_nil) inside,
      ih (by omega), Option.map_some]

/-- A quoted scalar is read back, and what follows it is left. -/
lemma quoted?_of_spells (h : quote.Spells text written) (alone : quote = .single → tail.head? ≠ some '\'') :
    quoted? quote (written ++ tail) = some (text, tail) := by
  apply h.read _ alone
  rw [List.length_append]
  omega

/-- Spaces stand for themselves. -/
lemma spells_spaces (nonempty : gap ≠ []) (spaces : ∀ c ∈ gap, c = ' ') (clear : Clear isGap written)
    (spelled : quote.Spells text written) : quote.Spells (gap ++ text) (gap ++ written) := by
  have unbroken : ∀ c ∈ gap, isBreak c = false := fun c mem => spaces c mem ▸ not_isBreak_space
  have gaps : ∀ c ∈ gap, isGap c = true := fun c mem => spaces c mem ▸ by decide
  have inside : gap.getLast?.any isBreak = false := by
    cases last : gap.getLast? with
    | none => rfl
    | some c => exact unbroken c (List.mem_of_getLast? last)
  have spelled := Quote.Spells.gap nonempty gaps clear inside spelled
  rwa [foldGap_blanks unbroken] at spelled

/-! ## Between single quotes -/

lemma writeSingle_plain (other : isBreak c = false) (mark : c ≠ '\'') (rest : Text) :
    writeSingle false (c :: rest) = c :: writeSingle false rest := by
  rw [writeSingle, other, if_neg Bool.false_ne_true, if_neg Bool.false_ne_true,
    if_neg (by simpa using mark)]
  rfl

/-- What is written for a text begins with a gap only if the text does. -/
lemma clear_writeSingle (clear : Clear isGap rest) : Clear isGap (writeSingle false rest) := by
  cases rest with
  | nil => exact clear_cons_iff.mpr (by decide)
  | cons c rest =>
    have other := clear_cons_iff.mp clear
    by_cases mark : c = '\''
    · subst mark
      exact clear_cons_iff.mpr other
    · rw [writeSingle_plain (not_isBreak_of_not_isGap other) mark]
      exact clear_cons_iff.mpr other

/-- Spaces are written as they are. -/
lemma writeSingle_spaces (spaces : ∀ c ∈ gap, c = ' ') (rest : Text) :
    writeSingle false (gap ++ rest) = gap ++ writeSingle false rest := by
  induction gap with
  | nil => rfl
  | cons c more ih =>
    obtain ⟨rfl, more⟩ := List.forall_mem_cons.mp spaces
    rw [List.cons_append, writeSingle_plain not_isBreak_space (by decide), ih more]
    rfl

/-- Breaks are written as they are, and what follows them is set off by a margin. -/
lemma writeSingle_breaks (nonempty : gap ≠ []) (broken : ∀ c ∈ gap, isBreak c = true)
    (clear : Clear isBreak rest) (before : Bool) :
    writeSingle before (gap ++ rest) = gap ++ margin ++ writeSingle false rest := by
  have margin : writeSingle true rest = margin ++ writeSingle false rest := by
    cases rest with
    | nil => rfl
    | cons c rest =>
      have unbroken := clear_cons_iff.mp clear
      rw [writeSingle, writeSingle, unbroken, if_neg Bool.false_ne_true, if_pos rfl,
        if_neg Bool.false_ne_true, if_neg Bool.false_ne_true, List.nil_append, List.append_assoc]
  induction gap generalizing before with
  | nil => exact (nonempty rfl).elim
  | cons c more ih =>
    obtain ⟨first, others⟩ := List.forall_mem_cons.mp broken
    rw [List.cons_append, writeSingle, if_pos first]
    cases more with
    | nil =>
      rw [List.nil_append, margin]
      rfl
    | cons d more =>
      rw [ih (List.cons_ne_nil _ _) others]
      rfl

/-- A text between single quotes in which no space meets a break and no line feed stands. -/
lemma spells_writeSingle (printable : ∀ c ∈ text, isPrintable c = true) (feed : '\n' ∉ text)
    (before : hasNeighbours isSpace isBreak text = false)
    (behind : hasNeighbours isBreak isSpace text = false) :
    Quote.single.Spells text (writeSingle false text) := by
  induction text using run_induction isGap with
  | nil => exact .close
  | other c rest other ih =>
    obtain ⟨_, printable⟩ := List.forall_mem_cons.mp printable
    have rest := ih printable (fun mem => feed (List.mem_cons_of_mem c mem))
      (hasNeighbours_cons before) (hasNeighbours_cons behind)
    by_cases mark : c = '\''
    · subst mark
      exact .doubled rfl rest
    · rw [writeSingle_plain (not_isBreak_of_not_isGap other) mark]
      exact .plain other mark nofun rest
  | run gap rest nonempty all clear ih =>
    obtain ⟨printableGap, printable⟩ := List.forall_mem_append.mp printable
    obtain ⟨before, beforeRest⟩ := hasNeighbours_append before
    obtain ⟨behind, behindRest⟩ := hasNeighbours_append behind
    have feedGap : '\n' ∉ gap := fun mem => feed (List.mem_append_left rest mem)
    have spelled := ih printable (fun mem => feed (List.mem_append_right gap mem)) beforeRest behindRest
    have each := fun c mem => isGap_of_isPrintable (printableGap c mem) (all c mem)
    rcases spaces_or_breaks each before behind with spaces | breaks
    · rw [writeSingle_spaces spaces]
      exact spells_spaces nonempty spaces (clear_writeSingle clear) spelled
    · rw [writeSingle_breaks nonempty breaks (clear.imp not_isBreak_of_not_isGap)]
      have blank : ∀ c ∈ margin, isGap c = true ∧ isBreak c = false := by
        simp only [margin, List.forall_mem_cons]
        exact ⟨by decide, by decide, List.forall_mem_nil _⟩
      have folded : foldGap (gap ++ margin) = gap :=
        foldGap_breaks nonempty feedGap (fun c mem => ⟨printableGap c mem, breaks c mem⟩)
          (fun c mem => (blank c mem).2)
      have gaps : ∀ c ∈ gap ++ margin, isGap c = true :=
        List.forall_mem_append.mpr ⟨all, fun c mem => (blank c mem).1⟩
      have inside : (gap ++ margin).getLast?.any isBreak = false := by
        rw [List.getLast?_append]
        rfl
      have spelled := Quote.Spells.gap (List.append_ne_nil_of_left_ne_nil nonempty margin) gaps
        (clear_writeSingle clear) inside spelled
      rwa [folded] at spelled

/-! ## Between double quotes -/

/-- A number is read back from its digits, if there are enough of them. -/
lemma number?_digits (width : Nat) (lt : n < 16 ^ width) : Hex.number? (Hex.digits width n) = some n := by
  induction width generalizing n with
  | zero =>
    cases Nat.lt_one_iff.mp lt
    rfl
  | succ width ih =>
    have high : Hex.number? (Hex.digits width (n / 16)) = some (n / 16) := by
      apply ih
      rw [Nat.pow_succ] at lt
      exact Nat.div_lt_of_lt_mul (Nat.mul_comm _ _ ▸ lt)
    rw [Hex.number?] at high
    rw [Hex.number?, Hex.digits, List.foldlM_append, high, Option.bind_eq_bind, Option.bind_some,
      List.foldlM_cons, Percent.value_digit _ (Nat.mod_lt n (by decide))]
    exact congrArg some (Nat.div_add_mod n 16)

lemma length_digits (width n : Nat) : (Hex.digits width n).length = width := by
  induction width generalizing n with
  | zero => rfl
  | succ width ih =>
    rw [Hex.digits, List.length_append, ih]
    rfl

/-- Every escape of one character is read back, and no break follows its backslash. -/
lemma shortEscapes_written : ∀ e ∈ writtenEscapes, isBreak e.2 = false ∧
    escapeWidths.lookup e.2 = none ∧ shortEscapes.lookup e.2 = some e.1 := by
  decide

lemma escape?_letter {letter : Char} (long : escapeWidths.lookup letter = none)
    (short : shortEscapes.lookup letter = some c) (rest : Text) :
    escape? (letter :: rest) = some (c, rest) := by
  rw [escape?, long]
  dsimp only
  rw [short]
  rfl

/-- A character is read back from the digits of its number. -/
lemma escape?_digits {letter : Char} {width : Nat} (known : escapeWidths.lookup letter = some width)
    (lt : c.toNat < 16 ^ width) (rest : Text) :
    escape? (letter :: Hex.digits width c.toNat ++ rest) = some (c, rest) := by
  have take : (Hex.digits width c.toNat ++ rest).take width = Hex.digits width c.toNat :=
    List.take_left' (length_digits width _)
  have drop : (Hex.digits width c.toNat ++ rest).drop width = rest :=
    List.drop_left' (length_digits width _)
  have char : charOf? c.toNat = some c := by
    have valid : c.toNat.isValidChar := c.valid
    rw [charOf?, if_pos valid, Char.ofNat_toNat]
  rw [List.cons_append, escape?, known]
  dsimp only
  rw [take, drop, length_digits, if_neg (Nat.lt_irrefl _), number?_digits width lt]
  show (charOf? c.toNat).bind _ = _
  rw [char]
  rfl

/-- The characters that are written as they are between double quotes stand in no gap but for the space,
and close no quote. -/
lemma not_isGap_of_plain (escape : writtenEscapes.lookup c = none) (printable : isPrintable c)
    (space : isSpace c = false) : isGap c = false ∧ c ≠ '"' ∧ c ≠ '\\' := by
  refine ⟨?_, ?_, ?_⟩
  · by_contra gap
    rcases isGap_of_isPrintable printable (Bool.of_not_eq_false gap) with rfl | broken
    · cases space
    · rcases isBreak_iff.mp broken with rfl | rfl | rfl | rfl | rfl <;> exact absurd escape (by decide)
  · rintro rfl
    exact absurd escape (by decide)
  · rintro rfl
    exact absurd escape (by decide)

/-- A character that is no space is written as itself or as an escape of it. -/
lemma spells_doubleChar (space : isSpace c = false) (spelled : Quote.double.Spells text written) :
    Quote.double.Spells (c :: text) (doubleChar c ++ written) := by
  have small : c.toNat < 16 ^ 8 := by
    rcases c.valid with lt | ⟨_, lt⟩
    · exact Nat.lt_trans lt (by decide)
    · exact Nat.lt_trans lt (by decide)
  unfold doubleChar
  split
  · rename_i letter found
    obtain ⟨unbroken, long, short⟩ := shortEscapes_written _ (mem_of_lookup found)
    exact @Quote.Spells.escaped _ c letter [] _ _ rfl unbroken (escape?_letter long short) spelled
  · rename_i escape
    split
    · rename_i printable
      obtain ⟨other, mark, backslash⟩ := not_isGap_of_plain escape printable space
      exact .plain other mark (fun _ => backslash) spelled
    · unfold numberEscape
      split_ifs with byte two
      · exact .escaped rfl (by decide) (escape?_digits rfl (Nat.lt_succ_of_le byte)) spelled
      · exact .escaped rfl (by decide) (escape?_digits rfl (Nat.lt_succ_of_le two)) spelled
      · exact .escaped rfl (by decide) (escape?_digits rfl small) spelled

/-- What is written for a character that is no space begins with no gap. -/
lemma clear_doubleChar (space : isSpace c = false) (rest : Text) : Clear isGap (doubleChar c ++ rest) := by
  unfold doubleChar
  split
  · exact clear_cons_iff.mpr (by decide)
  · rename_i escape
    split
    · rename_i printable
      exact clear_cons_iff.mpr (not_isGap_of_plain escape printable space).1
    · exact clear_cons_iff.mpr (by decide)

/-- Any text can be written between double quotes. -/
lemma spells_double (text : Text) : Quote.double.Spells text (text.flatMap doubleChar ++ ['"']) := by
  induction text using run_induction isSpace with
  | nil => exact .close
  | other c rest space ih =>
    rw [List.flatMap_cons, List.append_assoc]
    exact spells_doubleChar space ih
  | run gap rest nonempty all clear ih =>
    have spaces : ∀ c ∈ gap, c = ' ' := fun c mem => beq_iff_eq.mp (all c mem)
    have same : gap.flatMap doubleChar = gap := by
      have each : ∀ c ∈ gap, doubleChar c = [c] := by
        intro c mem
        rw [spaces c mem]
        rfl
      rw [List.flatMap_congr each]
      exact List.flatMap_singleton' gap
    have clear : Clear isGap (rest.flatMap doubleChar ++ ['"']) := by
      cases rest with
      | nil => exact clear_cons_iff.mpr (by decide)
      | cons c rest =>
        rw [List.flatMap_cons, List.append_assoc]
        exact clear_doubleChar (clear_cons_iff.mp clear) _
    rw [List.flatMap_append, same, List.append_assoc]
    exact spells_spaces nonempty spaces clear ih

end FilterEditor.Yaml
