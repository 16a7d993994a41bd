import FilterEditor.Proofs.Grammar
import FilterEditor.Proofs.Line
import FilterEditor.Text.Blank
import Mathlib.Data.List.TakeWhile

/-!
# Words

A word is a text of letters, digits and marks that mean nothing to the grammar. Nothing is trimmed off a
word, it stands in a search string as it is, and no character of it can be taken for a token.
-/

namespace FilterEditor

/-- Whether a character may stand in a word. -/
def isWordChar (c : Char) : Bool :=
  c.isAlphanum || c == '-' || c == '_' || c == '.' || c == '~' || c == '*' || c == '\''

/-- A text of word characters, at least one. -/
structure Word (text : Text) : Prop where
  nonempty : text ≠ []
  chars : ∀ c ∈ text, isWordChar c

variable {c : Char} {text : Text}

/-! ## Characters -/

lemma toNat_of_isWordChar (h : isWordChar c) : 33 ≤ c.toNat ∧ c.toNat ≤ 126 := by
  have alphanum : c.isAlphanum = (c.isUpper || c.isLower || c.isDigit) := rfl
  have isUpper : c.isUpper = decide ('A'.val ≤ c.val ∧ c.val ≤ 'Z'.val) := rfl
  have isLower : c.isLower = (decide ('a'.val ≤ c.val) && decide (c.val ≤ 'z'.val)) := rfl
  have isDigit : c.isDigit = (decide ('0'.val ≤ c.val) && decide (c.val ≤ '9'.val)) := rfl
  simp only [isWordChar, alphanum, isUpper, isLower, isDigit, Bool.or_eq_true, Bool.and_eq_true,
    beq_iff_eq, decide_eq_true_eq, UInt32.le_iff_toNat_le] at h
  have val : c.toNat = c.val.toNat := rfl
  have upper : 'A'.val.toNat = 65 ∧ 'Z'.val.toNat = 90 := ⟨rfl, rfl⟩
  have lower : 'a'.val.toNat = 97 ∧ 'z'.val.toNat = 122 := ⟨rfl, rfl⟩
  have digit : '0'.val.toNat = 48 ∧ '9'.val.toNat = 57 := ⟨rfl, rfl⟩
  rcases h with ((((((letter | digit) | rfl) | rfl) | rfl) | rfl) | rfl) | rfl
  · omega
  · omega
  all_goals decide

lemma isBlank_of_isWordChar (h : isWordChar c) : Text.isBlank c = false := by
  obtain ⟨lower, upper⟩ := toNat_of_isWordChar h
  simp only [Text.isBlank, Bool.or_eq_false_iff, Bool.and_eq_false_imp, decide_eq_false_iff_not,
    decide_eq_true_eq, beq_eq_false_iff_ne]
  omega

lemma ne_space_of_nonblank (h : Text.isBlank c = false) : c ≠ ' ' := by
  rintro rfl
  cases h

/-- Line breaks are white space. -/
lemma accepts_of_nonblank (h : Text.isBlank c = false) : Line.accepts c := by
  apply Line.accepts_iff.mpr
  constructor <;> rintro rfl <;> cases h

lemma encodeChar_of_isWordChar (h : isWordChar c) : Percent.encodeChar c = [c] := by
  have literal : Percent.isLiteral c := by
    simp only [isWordChar, Percent.isLiteral, Bool.or_eq_true] at h ⊢
    tauto
  rw [Percent.encodeChar, if_pos literal]

/-- A character that no token starts with. -/
def Inert (c : Char) : Prop := ∀ t ∈ Term.tokens, ∀ rest, t.label ≠ c :: rest

lemma inert_of_not_mem (h : c ∉ ['=', '!', '<', '>', '&', '|', '(', ')']) : Inert c := by
  have heads : ∀ t ∈ Term.tokens,
      t.label.head?.all fun c => c ∈ ['=', '!', '<', '>', '&', '|', '(', ')'] := by
    decide
  intro t ht rest label
  have head := heads t ht
  rw [label] at head
  exact h (of_decide_eq_true head)

lemma inert_of_isWordChar (h : isWordChar c) : Inert c := by
  apply inert_of_not_mem
  intro mem
  simp only [List.mem_cons, List.not_mem_nil, or_false] at mem
  rcases mem with rfl | rfl | rfl | rfl | rfl | rfl | rfl | rfl <;> cases h

/-! ## Texts -/

/-- Nothing is left of a text just if it is all white space. -/
lemma trim_eq_nil_iff : text.trim = [] ↔ ∀ c ∈ text, Text.isBlank c := by
  rw [Text.trim, Text.trimEnd, Text.trimStart, List.reverse_eq_nil_iff, List.dropWhile_eq_nil_iff]
  simp only [List.mem_reverse]
  constructor
  · intro behind c mem
    rw [← List.takeWhile_append_dropWhile (p := Text.isBlank) (l := text)] at mem
    rcases List.mem_append.mp mem with front | back
    · exact List.mem_takeWhile_imp front
    · exact behind c back
  · intro all c mem
    exact all c ((List.dropWhile_suffix _).subset mem)

/-- Nothing is trimmed off a text without white space at its ends. -/
lemma trim_of_ends (first : ∀ c ∈ text.head?, Text.isBlank c = false)
    (last : ∀ c ∈ text.getLast?, Text.isBlank c = false) : text.trim = text := by
  have start : ∀ text : Text, (∀ c ∈ text.head?, Text.isBlank c = false) →
      text.dropWhile Text.isBlank = text := by
    intro text first
    cases text with
    | nil => rfl
    | cons c rest =>
      rw [List.dropWhile_cons_of_neg]
      simp [first c rfl]
  rw [← List.head?_reverse] at last
  rw [Text.trim, Text.trimStart, start text first, Text.trimEnd, start text.reverse last,
    List.reverse_reverse]

lemma trim_eq_self (h : ∀ c ∈ text, Text.isBlank c = false) : text.trim = text :=
  trim_of_ends (fun c hc => h c (List.mem_of_mem_head? hc))
    fun c hc => h c (List.mem_of_getLast? hc)

namespace Word

lemma single (h : isWordChar c) : Word [c] := by
  refine ⟨nofun, fun x hx => ?_⟩
  cases List.mem_singleton.mp hx
  exact h

lemma trim (h : Word text) : Text.trim text = text :=
  trim_eq_self fun c hc => isBlank_of_isWordChar (h.chars c hc)

lemma encode (h : Word text) : Percent.encode text = text := by
  have chars := h.chars
  clear h
  induction text with
  | nil => rfl
  | cons c rest ih =>
    rw [Percent.encode, List.flatMap_cons, encodeChar_of_isWordChar (chars c List.mem_cons_self)]
    exact congrArg (c :: ·) (ih fun c hc => chars c (List.mem_cons_of_mem _ hc))

end Word

/-! ## Words and tokens -/

namespace Grammar

/-- No operator extends a text that starts like no token. -/
lemma extending_of_inert (h : Inert c) (rest : Text) :
    extendingOperators (c :: rest) = [] := by
  apply List.filter_eq_nil_iff.mpr
  intro t ht
  simp only [Bool.and_eq_true, not_and]
  intro starts
  obtain ⟨more, label⟩ := List.isPrefixOf_iff_prefix.mp starts
  exact (h t (tokens_of_relational ht) (rest ++ more) label.symm).elim

/-- A character that starts no token completes none either, but for a slot between parentheses. -/
lemma continuations_of_inert (h : Inert c) {expected : Option Kind}
    (ungrouped : expected ≠ some .groupingOperator) (context : Context) :
    (filter.continuations [c] expected context).isPartial = false ∧
      (filter.continuations [c] expected context).exactMatch? [c] = none := by
  constructor
  · have operators : (operatorsAndJoiners [c]).isPartial = false := by
      rw [operatorsAndJoiners, extending_of_inert h]
    have offered : (offered [c] expected context).isPartial = false := by
      unfold offered
      split
      · rfl
      · split
        · split
          · rfl
          · split <;> rfl
        · exact operators
      · exact operators
      · rfl
      · rfl
      · split <;> rfl
    simp only [continuations, offered, Bool.false_or, List.isEmpty_cons, Bool.false_eq_true, if_false]
    split
    · rfl
    · exact offered
  · cases found : (filter.continuations [c] expected context).exactMatch? [c] with
    | none => rfl
    | some t =>
      -- A match would be a token that starts with the character, and there is none.
      obtain ⟨mem, label⟩ := mem_of_exactMatch found
      rcases mem_offered (mem_offered_of_continuations mem) with token | ⟨grouped, _⟩
      · exact (h t token [] label).elim
      · exact (ungrouped grouped).elim

end Grammar
end FilterEditor
