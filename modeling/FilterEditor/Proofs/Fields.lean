import FilterEditor.Proofs.Blocks
import FilterEditor.Proofs.Quoting
import FilterEditor.Proofs.Scanning

/-!
# Scanning written fields

A field is a name and a value. Its name is scanned as a scalar where a key may begin, the colon behind it makes
a key of it, and its value is one more scalar, in whatever form it is written (`Written`). Behind the value
the scanner stands at the start of the next line, so a field is scanned in three steps from one line start to
the next (`tokens?_field`).
-/

namespace FilterEditor.Yaml

variable {c : Char} {text value name rest next : Text} {style : Style}

namespace Scanner

/-! ## Places in a field -/

/-- At the start of a line, where a field may begin. -/
def atLine (indents : List Nat) (rest : Text) (p : Position) (tokens : List Token) : Scanner :=
  { rest, position := p, tokens, indents }

/-- Behind a name at the start of a line, which may be a key. -/
def atColon (indents : List Nat) (name rest : Text) (p : Position) (tokens : List Token) : Scanner :=
  { rest := ':' :: rest
    position := p.after name
    tokens := tokens ++ [.scalar .plain name]
    indents
    key := some ⟨tokens.length, p, indents.head? == some p.column⟩
    keyAllowed := false }

/-- Behind the colon of a field. -/
def atValue (rest : Text) (p : Position) (tokens : List Token) : Scanner :=
  { rest, position := p, tokens, indents := [0], keyAllowed := false }

variable {p : Position} {indents : List Nat}

/-! ## Names -/

/-- Whether a character may stand in the name of a field. -/
def isLetter (c : Char) : Bool := c.isAlpha || c == '_'

/-- The names of fields. -/
structure IsName (name : Text) : Prop where
  nonempty : name ≠ []
  letters : ∀ c ∈ name, isLetter c = true
  short : name.length ≤ keyLimit

instance (name : Text) : Decidable (IsName name) :=
  decidable_of_iff (name ≠ [] ∧ name.all isLetter = true ∧ name.length ≤ keyLimit)
    ⟨fun ⟨nonempty, letters, short⟩ => ⟨nonempty, List.all_eq_true.mp letters, short⟩,
      fun ⟨nonempty, letters, short⟩ => ⟨nonempty, List.all_eq_true.mpr letters, short⟩⟩

lemma not_mem_of_isLetter {others : List Char} (letter : isLetter c = true)
    (none : others.any isLetter = false) : c ∉ others :=
  fun mem => Bool.eq_false_iff.mp none (List.any_eq_true.mpr ⟨c, mem, letter⟩)

lemma not_isGap_of_isLetter (letter : isLetter c = true) : isGap c = false := by
  have other :=
    @not_mem_of_isLetter c [' ', '\t', '\n', '\r', '\x85', '\u2028', '\u2029'] letter (by decide)
  simp only [List.mem_cons, List.not_mem_nil, or_false, not_or] at other
  simp [isGap, isBlank, isBreak, other]

/-- What begins with a letter or is empty begins with no gap. -/
lemma clear_isGap (clear : Clear (fun c => !isLetter c) text) : Clear isGap text :=
  clear.imp fun letter => not_isGap_of_isLetter (by simpa using letter)

/-- A name is read as a plain scalar, up to the colon behind it. -/
lemma plain?_name (h : IsName name) (indent : Nat) (rest : Text) :
    plain? false indent (name ++ ':' :: ' ' :: rest) = some ⟨name, false, ':' :: ' ' :: rest⟩ := by
  have stops : plainRun false (':' :: ' ' :: rest) = some ([], ':' :: ' ' :: rest) := rfl
  have run : plainRun false (name ++ ':' :: ' ' :: rest) = some (name, ':' :: ' ' :: rest) := by
    apply plainRun_append (fun c mem => not_isGap_of_isLetter (h.letters c mem)) _ stops
    rintro a b rfl
    cases h.letters ':' (List.mem_append_right _ List.mem_cons_self)
  rw [plain?, plainFrom, run]
  rfl

/-- A name is a plain scalar, and a key may begin with it. -/
lemma token?_name (h : IsName name) (rest : Text) (tokens : List Token) :
    (atLine indents (name ++ ':' :: ' ' :: rest) p tokens).token? =
      some (atColon indents name (' ' :: rest) p tokens) := by
  obtain ⟨c, more, rfl⟩ := List.exists_cons_of_ne_nil h.nonempty
  have letter := h.letters c List.mem_cons_self
  have special := @not_mem_of_isLetter c ['?', ':', '-', '%', '.'] letter (by decide)
  simp only [List.mem_cons, List.not_mem_nil, or_false, not_or] at special
  have marker (tail : Text) : atMarker (c :: tail) = false := by
    rw [atMarker]
    · exact fun _ eq => (special.2.2.1 (List.cons.inj eq).1).elim
    · exact fun _ eq => (special.2.2.2.2 (List.cons.inj eq).1).elim
  rw [token?_plain rfl rfl (fun _ => ⟨special.2.2.2.1, marker _⟩) (not_isGap_of_isLetter letter)
    (not_mem_of_isLetter letter (by decide)) (by simp [special])]
  show (plain? false _ (c :: more ++ ':' :: ' ' :: rest)).bind _ = _
  rw [plain?_name h, Option.bind_some]
  dsimp only
  rw [mayBeKey?_of_allowed _ rfl rfl rfl rfl]
  rfl

/-- The token of the mapping that a first key opens. -/
def opening (indents : List Nat) : List Token := if indents.isEmpty then [.blockMapping] else []

/-- The colon behind a name at the start of a line makes it a key. -/
lemma value?_name (name : Text) (column : p.column = 0) (outermost : indents = [] ∨ indents = [0])
    (rest : Text) (tokens : List Token) :
    (atColon indents name rest p tokens).value? =
      some (atValue rest ((p.after name).after [':'])
        (tokens ++ opening indents ++ [.key, .scalar .plain name, .value])) := by
  rcases outermost with rfl | rfl <;>
    simp [atColon, atValue, value?, emitAt, openBlock, inFlow, least, column, goTo, emit, opening]

end Scanner

/-! ## Values -/

/-- The values that are written for a scalar. -/
inductive Written : Text → Style → Text → Prop
  | plain {text : Text} (fits : fitsPlain text = true) (nonempty : text ≠ []) : Written text .plain text
  | quoted {quote : Quote} {text written : Text} (spelled : quote.Spells text written) :
      Written (quote.mark :: written) .quoted text
  | literal {text : Text} (printable : ∀ c ∈ text, isPrintable c = true) (nonempty : text ≠ []) :
      Written ('|' :: literalHints text ++ '\n' :: writeLines true text) .literal text

/-- What is written plain begins with no gap and no mark. -/
lemma start_of_fitsPlain (fits : fitsPlain (c :: rest) = true) :
    isGap c = false ∧ c ∉ marks ∧ (c = '?' ∨ c = ':' ∨ c = '-' → atGap rest = false) := by
  have clear := (bare_of_fitsPlain fits).2
  simp only [fitsPlain, Bool.and_eq_true, Bool.not_eq_true'] at fits
  exact ⟨clear_cons_iff.mp clear, startsMarked_cons.mp fits.1.2⟩

/-- A value begins with no gap and no comment. -/
lemma Written.start (h : Written value style text) :
    ∃ c rest, value = c :: rest ∧ isGap c = false ∧ c ≠ '#' := by
  cases h with
  | plain fits nonempty =>
    obtain ⟨c, rest, rfl⟩ := List.exists_cons_of_ne_nil nonempty
    obtain ⟨gap, mark, _⟩ := start_of_fitsPlain fits
    refine ⟨c, rest, rfl, gap, ?_⟩
    rintro rfl
    exact mark (by decide)
  | @quoted quote => exact ⟨_, _, rfl, not_isGap_mark quote, by cases quote <;> decide⟩
  | literal => exact ⟨_, _, rfl, by decide, by decide⟩

/-- The style of the scalar that a text is written as. -/
def TextForm.readAs : TextForm → Style
  | plain => .plain
  | single | double => .quoted
  | literal => .literal

/-- A text is written as a value of it. -/
lemma written_writeText (text : Text) : Written (writeText text) (TextForm.of text).readAs text := by
  have double := Written.quoted (spells_double text)
  unfold writeText TextForm.of
  split_ifs with feed literal plain single
  · simp only [fitsLiteral, isEscapeFree, Bool.and_eq_true, List.all_eq_true] at literal
    refine .literal literal.1.1 ?_
    rintro rfl
    cases feed
  · exact double
  · simp only [Bool.and_eq_true, Bool.not_eq_true'] at plain
    refine .plain plain.2 ?_
    rintro rfl
    cases plain.1
  · simp only [fitsSingle, isEscapeFree, Bool.and_eq_true, Bool.not_eq_true', List.all_eq_true] at single
    exact .quoted (spells_writeSingle single.1.1 (by simpa using feed) single.1.2 single.2)
  · exact double

/-- A text is written plain only where that reads as nothing else. -/
lemma not_isAmbiguous_of_plain (plain : (TextForm.of text).readAs = .plain) : isAmbiguous text = false := by
  unfold TextForm.of at plain
  split_ifs at plain with feed literal fits single
  · cases plain
  · cases plain
  · simp only [Bool.and_eq_true, Bool.not_eq_true'] at fits
    exact fits.1
  · cases plain
  · cases plain

/-- A truth value is written plain. -/
lemma written_writeBool (flag : Bool) : Written (writeBool flag) .plain (writeBool flag) := by
  cases flag <;> exact .plain (by decide) (by decide)

namespace Scanner

variable {p : Position} {indents : List Nat}

/-! ## Lines -/

/-- Where a name or the end follows, nothing is skipped. -/
lemma skipBetween_clear (clear : Clear (fun c => !isLetter c) rest) (flow lineStart keyAllowed : Bool) :
    skipBetween flow lineStart keyAllowed false rest = (keyAllowed, rest) := by
  cases rest with
  | nil => rfl
  | cons c rest =>
    have letter : isLetter c = true := by simpa using clear_cons_iff.mp clear
    have unbroken := not_isBreak_of_not_isGap (not_isGap_of_isLetter letter)
    have other := @not_mem_of_isLetter c ['\ufeff', ' ', '\t', '#'] letter (by decide)
    simp only [List.mem_cons, List.not_mem_nil, or_false, not_or] at other
    simp [skipBetween, unbroken, other]

/-- At the start of a line a name or the end is found at once. -/
lemma approach?_line (outermost : indents = [] ∨ indents = [0])
    (clear : Clear (fun c => !isLetter c) rest) (p : Position) (tokens : List Token) :
    (atLine indents rest p tokens).approach? = some (atLine indents rest p tokens) := by
  apply approach?_of_skip [] rfl rfl (skipBetween_clear clear _ _ _) rfl
  rcases outermost with rfl | rfl
  · exact nofun
  · simp [atLine]

lemma token?_plainValue (fits : fitsPlain text = true) (nonempty : text ≠ []) (column : p.column ≠ 0)
    (clear : Clear isGap next) (tokens : List Token) :
    (atValue (text ++ '\n' :: next) p tokens).token? =
      some (atLine [0] next (p.after (text ++ ['\n'])) (tokens ++ [.scalar .plain text])) := by
  have read := plain?_of_fitsPlain fits (Nat.zero_lt_succ 0) clear
  have all : text ++ '\n' :: next = text ++ ['\n'] ++ next := by rw [List.append_assoc]; rfl
  obtain ⟨c, rest, rfl⟩ := List.exists_cons_of_ne_nil nonempty
  obtain ⟨gap, mark, indicator⟩ := start_of_fitsPlain fits
  rw [token?_plain rfl rfl (fun first => (column first).elim) gap mark]
  · show (plain? false 1 (c :: rest ++ '\n' :: next)).bind _ = _
    rw [read, Option.bind_some]
    dsimp only
    rw [mayBeKey?_of_forbidden _ all rfl]
    rfl
  · show _ → atGap (rest ++ '\n' :: next) = false
    rw [atGap_append]
    exact indicator

lemma token?_quotedValue {quote : Quote} {written : Text} (spelled : quote.Spells text written)
    (p : Position) (next : Text) (tokens : List Token) :
    (atValue (quote.mark :: written ++ '\n' :: next) p tokens).token? =
      some (atValue ('\n' :: next) (p.after (quote.mark :: written)) (tokens ++ [.scalar .quoted text])) := by
  have read : quoted? quote (written ++ '\n' :: next) = some (text, '\n' :: next) :=
    quoted?_of_spells spelled fun _ => by simp
  rw [token?_quoted quote rfl rfl]
  show (quoted? quote (written ++ '\n' :: next)).bind _ = _
  rw [read, Option.bind_some]
  dsimp only
  rw [mayBeKey?_of_forbidden _ rfl rfl]
  rfl

lemma token?_literalValue (printable : ∀ c ∈ text, isPrintable c = true) (nonempty : text ≠ [])
    (p : Position) (clear : Clear isGap next) (tokens : List Token) :
    (atValue ('|' :: literalHints text ++ '\n' :: writeLines true text ++ (closing text ++ next)) p
        tokens).token? =
      some (atLine [0] next
        (p.after ('|' :: literalHints text ++ '\n' :: writeLines true text ++ closing text))
        (tokens ++ [.scalar .literal text])) := by
  have all : literalHints text ++ '\n' :: writeLines true text ++ (closing text ++ next) =
      literalHints text ++ '\n' :: (writeLines true text ++ (closing text ++ next)) := by
    rw [List.append_assoc, List.cons_append]
  have read := block?_written printable nonempty clear
  rw [← all] at read
  rw [token?_literal rfl rfl]
  show (block? true 1
    (literalHints text ++ '\n' :: writeLines true text ++ (closing text ++ next))).bind _ = _
  rw [read, Option.bind_some]
  dsimp only
  rw [dropKey?_of_none rfl, Option.bind_eq_bind, Option.bind_some]
  rw [goTo_of_append ('|' :: literalHints text ++ '\n' :: writeLines true text ++ closing text)]
  · rfl
  · show _ = '|' :: literalHints text ++ '\n' :: writeLines true text ++ closing text ++ next
    rw [List.append_assoc _ (closing text)]
    rfl

/-- Behind a quoted value the break is skipped, and keys are allowed. -/
lemma approach?_break (clear : Clear (fun c => !isLetter c) next) (p : Position) (tokens : List Token) :
    (atValue ('\n' :: next) p tokens).approach? = some (atLine [0] next (p.after ['\n']) tokens) := by
  apply approach?_of_skip ['\n'] rfl rfl _ rfl
  · simp [atValue]
  · show skipBetween false true true false next = (true, next)
    exact skipBetween_clear clear false true true

/-- Behind the colon of a field its value is the next token, and behind that the next line begins. -/
lemma token?_value (h : Written value style text) (column : p.column ≠ 0)
    (clear : Clear (fun c => !isLetter c) next) (tokens : List Token) :
    ∃ s p', p'.column = 0 ∧ (atValue (value ++ (closing value ++ next)) p tokens).token? = some s ∧
      s.approach? = some (atLine [0] next p' (tokens ++ [.scalar style text])) := by
  have gap := clear_isGap clear
  cases h with
  | plain fits nonempty =>
    have unbroken := (bare_of_fitsPlain fits).1.unbroken
    have closed : closing text = ['\n'] := by
      apply closing_of_last
      rw [List.getLast?_eq_some_getLast nonempty]
      exact unbroken _ (List.getLast_mem nonempty)
    have token := token?_plainValue fits nonempty column gap tokens
    rw [closed]
    exact ⟨_, _, column_after (closed ▸ closing_ends text) p, token, approach?_line (.inr rfl) clear _ _⟩
  | @quoted quote _ written spelled =>
    have last : (quote.mark :: written).getLast? = some quote.mark := by
      rw [List.getLast?_cons, spelled.getLast?]
      rfl
    have closed : closing (quote.mark :: written) = ['\n'] := by
      apply closing_of_last
      rw [last]
      exact not_isBreak_of_not_isGap (not_isGap_mark quote)
    have token := token?_quotedValue spelled p next tokens
    rw [closed]
    exact ⟨_, _, column_after rfl _, token, approach?_break clear _ _⟩
  | literal printable nonempty =>
    have last : ('|' :: literalHints text ++ '\n' :: writeLines true text).getLast? = text.getLast? := by
      rw [List.getLast?_append, List.getLast?_cons, getLast?_writeLines,
        List.getLast?_eq_some_getLast nonempty]
      rfl
    have closed : closing ('|' :: literalHints text ++ '\n' :: writeLines true text) = closing text := by
      rw [closing, closing, last]
    have token := token?_literalValue printable nonempty p gap tokens
    have ends := closing_ends ('|' :: literalHints text ++ '\n' :: writeLines true text)
    rw [closed] at ends ⊢
    exact ⟨_, _, column_after ends p, token, approach?_line (.inr rfl) clear _ _⟩

/-! ## Fields -/

variable {fuel : Nat}

lemma tokens?_step {s s' s'' : Scanner} (found : s.approach? = some s') (more : s'.rest ≠ [])
    (token : s'.token? = some s'') : Scanner.tokens? (fuel + 1) s = Scanner.tokens? fuel s'' := by
  have goes : s'.rest.isEmpty = false := by simpa using more
  rw [Scanner.tokens?, found, Option.bind_eq_bind, Option.bind_some, goes, token]
  rfl

/-- Scanning goes on from where the next token is found. -/
lemma tokens?_congr {s s' : Scanner} (same : s.approach? = s'.approach?) (fuel : Nat) :
    Scanner.tokens? fuel s = Scanner.tokens? fuel s' := by
  cases fuel with
  | zero => rfl
  | succ fuel => rw [Scanner.tokens?, Scanner.tokens?, same]

/-- The colon behind a name is found at once, and the name is not too far back to be a key. -/
lemma approach?_colon (named : IsName name) (outermost : indents = [] ∨ indents = [0]) (rest : Text)
    (p : Position) (tokens : List Token) :
    (atColon indents name rest p tokens).approach? = some (atColon indents name rest p tokens) := by
  have unbroken : ∀ c ∈ name, isBreak c = false :=
    fun c mem => not_isBreak_of_not_isGap (not_isGap_of_isLetter (named.letters c mem))
  have short := named.short
  apply approach?_of_skip [] rfl rfl
  · simp [atColon, skipBetween, isBreak]
  · show (decide (p.line < (p.after name).line) ||
      decide (p.offset + keyLimit < (p.after name).offset)) = false
    rw [after_unbroken unbroken]
    simp only [Bool.or_eq_false_iff, decide_eq_false_iff_not]
    omega
  · rcases outermost with rfl | rfl
    · exact List.forall_mem_nil _
    · simp [atColon]

/-- The space behind the colon is skipped. -/
lemma approach?_space (h : Written value style text) (rest : Text) (p : Position) (tokens : List Token) :
    (atValue (' ' :: (value ++ rest)) p tokens).approach? =
      some (atValue (value ++ rest) (p.after [' ']) tokens) := by
  obtain ⟨c, more, rfl, gap, sign⟩ := h.start
  apply approach?_of_skip [' '] rfl rfl _ rfl
  · simp [atValue]
  · have unbroken := not_isBreak_of_not_isGap gap
    have other : c ≠ ' ' ∧ c ≠ '\t' := by
      constructor <;> rintro rfl <;> cases gap
    simp [atValue, skipBetween, not_isBreak_space, unbroken, other, sign]

/-- The tokens of a field. -/
def fieldTokens (name : Text) (style : Style) (text : Text) : List Token :=
  [.key, .scalar .plain name, .value, .scalar style text]

/-- A field is scanned in three steps, from one line start to the next: its name, which only the colon makes
a key, the colon and its value. -/
lemma tokens?_field (named : IsName name) (written : Written value style text)
    (outermost : indents = [] ∨ indents = [0]) (clear : Clear (fun c => !isLetter c) next)
    (column : p.column = 0) (tokens : List Token) (fuel : Nat) :
    ∃ p' : Position, p'.column = 0 ∧
      Scanner.tokens? (fuel + 3) (atLine indents (writeField name value ++ next) p tokens) =
        Scanner.tokens? fuel
          (atLine [0] next p' (tokens ++ opening indents ++ fieldTokens name style text)) := by
  have all : writeField name value ++ next = name ++ ':' :: ' ' :: (value ++ (closing value ++ next)) := by
    show name ++ ':' :: ' ' :: value ++ closing value ++ next = _
    simp only [List.append_assoc, List.cons_append]
  have starts :
      Clear (fun c => !isLetter c) (name ++ ':' :: ' ' :: (value ++ (closing value ++ next))) := by
    have clear : Clear (fun c => !isLetter c) name :=
      fun c first => by simpa using named.letters c (List.mem_of_mem_head? first)
    exact clear.append named.nonempty
  have beyond : (((p.after name).after [':']).after [' ']).column ≠ 0 := by
    rw [@after_unbroken [' '] (List.forall_mem_singleton.mpr (by decide))]
    exact Nat.succ_ne_zero _
  obtain ⟨s, p', column', token, found⟩ := token?_value written beyond clear
    (tokens ++ opening indents ++ [.key, .scalar .plain name, .value])
  have nonempty : value ≠ [] := by
    obtain ⟨c, rest, rfl, _⟩ := written.start
    exact List.cons_ne_nil _ _
  refine ⟨p', column', ?_⟩
  rw [all, tokens?_step (approach?_line outermost starts p tokens) (by simp [atLine])
      (token?_name named _ _),
    tokens?_step (approach?_colon named outermost _ p _) (List.cons_ne_nil _ _)
      ((token?_colon rfl rfl).trans (value?_name _ column outermost _ _)),
    tokens?_step (approach?_space written _ _ _) (by simp [atValue, nonempty]) token]
  apply tokens?_congr
  rw [found, List.append_assoc, approach?_line (.inr rfl) clear]
  rfl

end Scanner
end FilterEditor.Yaml
