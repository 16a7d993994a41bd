import FilterEditor.Proofs.Unquoted
import FilterEditor.Yaml.Token

/-!
# Steps of the scanner

Outside of brackets a step of the scanner first skips what stands between tokens, which leaves it as it was
but for its place (`approach?_of_skip`), and then reads the token that the next character begins. A scalar
is added where no key may begin (`mayBeKey?_of_forbidden`); where one may, its place is remembered as well
(`mayBeKey?_of_allowed`).
-/

namespace FilterEditor.Yaml

variable {c : Char} {text rest : Text}

/-! ## Places -/

/-- Characters that break no line are counted within it. -/
lemma after_unbroken (unbroken : ∀ c ∈ text, isBreak c = false) (p : Position) :
    p.after text = ⟨p.line, p.column + text.length, p.offset + text.length⟩ := by
  induction text generalizing p with
  | nil => rfl
  | cons c rest ih =>
    obtain ⟨first, others⟩ := List.forall_mem_cons.mp unbroken
    have other : c ≠ '\r' := by
      rintro rfl
      cases first
    rw [Position.after, first, if_neg Bool.false_ne_true, ih others, List.length_cons]
    · simp only [Position.mk.injEq, true_and]
      omega
    · exact fun _ eq => (other eq).elim

/-- Behind a break a line begins. -/
lemma column_after (ends : text.getLast?.any isBreak = true) (p : Position) :
    (p.after text).column = 0 := by
  fun_induction Position.after p text with
  | case1 => cases ends
  | case2 p rest ih =>
    cases rest with
    | nil => rfl
    | cons d more => exact ih (by simpa using ends)
  | case3 p c rest _ broken ih =>
    cases rest with
    | nil => rfl
    | cons d more => exact ih (by simpa using ends)
  | case4 p c rest _ unbroken ih =>
    cases rest with
    | nil => exact (unbroken (by simpa using ends)).elim
    | cons d more => exact ih (by simpa using ends)

namespace Scanner

variable {s : Scanner}

lemma inFlow_of_block (block : s.outer = []) : s.inFlow = false := by
  rw [inFlow, block]
  rfl

/-- Goes behind some characters. -/
def behind (taken rest : Text) (keyAllowed : Bool) (s : Scanner) : Scanner :=
  { s with rest, position := s.position.after taken, keyAllowed }

lemma goTo_of_append (taken : Text) (all : s.rest = taken ++ rest) :
    s.goTo rest = { s with rest, position := s.position.after taken } := by
  rw [goTo, all, List.length_append, Nat.add_sub_cancel, List.take_left']
  rfl

/-! ## Between tokens -/

lemma closeBlocks_of_forall {keep : Nat → Bool} (kept : ∀ i ∈ s.indents, keep i = true) :
    s.closeBlocks keep = s := by
  have none : s.indents.takeWhile (!keep ·) = [] := by
    cases eq : s.indents with
    | nil => rfl
    | cons i more => simp [kept i (eq ▸ List.mem_cons_self)]
  have all : s.indents.dropWhile (!keep ·) = s.indents := by
    have whole := @List.takeWhile_append_dropWhile _ (!keep ·) s.indents
    rwa [none] at whole
  rw [closeBlocks]
  split
  · rfl
  · dsimp only
    rw [none, all, List.map_nil, List.append_nil]

/-- A key that is not too far back is kept. -/
lemma dropStale?_of_young (block : s.outer = []) (young : s.key.any (·.isStale s.position) = false) :
    s.dropStale? = some s := by
  obtain ⟨rest, position, tokens, indents, key, outer, keyAllowed⟩ := s
  dsimp only at block young
  subst block
  simp [dropStale?, young]

/-- Outside of brackets the next token is found behind what is skipped, if that leaves a key where it was
and closes no block. -/
lemma approach?_of_skip (taken : Text) {allowed : Bool} (block : s.outer = [])
    (all : s.rest = taken ++ rest)
    (skip : skipBetween false (s.position.column == 0) s.keyAllowed false s.rest = (allowed, rest))
    (young : s.key.any (·.isStale (s.position.after taken)) = false)
    (inside : ∀ i ∈ s.indents, i ≤ (s.position.after taken).column) :
    s.approach? = some (s.behind taken rest allowed) := by
  have kept := @dropStale?_of_young (s.behind taken rest allowed) block young
  have opened := @closeBlocks_of_forall (s.behind taken rest allowed)
    (· ≤ (s.position.after taken).column) fun i mem => decide_eq_true (inside i mem)
  rw [approach?, inFlow_of_block block, skip]
  dsimp only
  rw [goTo_of_append taken all]
  show (s.behind taken rest allowed).dropStale?.bind _ = _
  rw [kept, Option.bind_some]
  exact congrArg some opened

/-! ## Which token begins -/

/-- A character that is no mark begins a plain scalar, the three that are marks before a gap only where none
follows. -/
lemma startsPlain_cons (gap : isGap c = false) (mark : c ∉ marks)
    (indicator : c = '?' ∨ c = ':' ∨ c = '-' → atGap rest = false) :
    startsPlain false (c :: rest) = true := by
  by_cases special : c = '?' ∨ c = ':' ∨ c = '-'
  · have behind := indicator special
    have blank : rest.head?.any isBlank = false := by
      cases rest with
      | nil => rfl
      | cons d more => exact (Bool.or_eq_false_iff.mp behind).1
    rcases special with rfl | rfl | rfl <;> simp [startsPlain, behind, blank]
  · have plain : isIndicator c = false := by
      simp only [marks, List.mem_cons, List.not_mem_nil, or_false, not_or] at mark special
      simp [isIndicator, mark, special]
    rw [startsPlain, gap, plain]
    rfl

lemma token?_plain (eq : s.rest = c :: rest) (block : s.outer = [])
    (first : s.position.column = 0 → c ≠ '%' ∧ atMarker (c :: rest) = false) (gap : isGap c = false)
    (mark : c ∉ marks) (indicator : c = '?' ∨ c = ':' ∨ c = '-' → atGap rest = false) :
    s.token? = s.plainScalar? := by
  have directive : (s.position.column == 0 && c == '%') = false := by
    rw [Bool.and_eq_false_imp, beq_iff_eq, beq_eq_false_iff_ne]
    exact fun column => (first column).1
  have marker : (s.position.column == 0 && atMarker (c :: rest)) = false := by
    rw [Bool.and_eq_false_imp, beq_iff_eq]
    exact fun column => (first column).2
  have alone {d : Char} (special : d = '?' ∨ d = ':' ∨ d = '-') : (c == d && atGap rest) = false := by
    rw [Bool.and_eq_false_imp, beq_iff_eq]
    rintro rfl
    exact indicator special
  have starts := startsPlain_cons gap mark indicator
  simp only [marks, List.mem_cons, List.not_mem_nil, or_false, not_or] at mark
  rw [token?, eq]
  simp [directive, marker, alone, inFlow_of_block block, starts, mark]

lemma token?_quoted (quote : Quote) (eq : s.rest = quote.mark :: rest) (block : s.outer = []) :
    s.token? = s.quotedScalar? quote := by
  cases quote <;> simp [token?, eq, Quote.mark, atMarker, inFlow_of_block block]

lemma token?_literal (eq : s.rest = '|' :: rest) (block : s.outer = []) :
    s.token? = s.blockScalar? true := by
  simp [token?, eq, atMarker, inFlow_of_block block]

lemma token?_colon (eq : s.rest = ':' :: rest) (gap : atGap rest = true) :
    s.token? = s.value? := by
  simp [token?, eq, atMarker, gap]

/-! ## Keys -/

lemma dropKey?_of_none (none : s.key = none) : s.dropKey? = some s := by
  obtain ⟨rest, position, tokens, indents, key, outer, keyAllowed⟩ := s
  dsimp only at none
  subst none
  rfl

/-- Where no key may begin, a scalar is only added. -/
lemma mayBeKey?_of_forbidden {taken : Text} (t : Token) (all : s.rest = taken ++ rest)
    (forbidden : s.keyAllowed = false) :
    s.mayBeKey? t rest = some ((s.behind taken rest false).emit t) := by
  have save : s.saveKey? = some s := by rw [saveKey?, forbidden]; rfl
  have same : s.allowKey false = s := by rw [allowKey, ← forbidden]
  rw [mayBeKey?, save, Option.bind_eq_bind, Option.bind_some, same, goTo_of_append taken all, ← forbidden]
  rfl

/-- Where a key may begin, the place of a scalar is remembered. -/
lemma mayBeKey?_of_allowed {taken : Text} (t : Token) (all : s.rest = taken ++ rest) (block : s.outer = [])
    (none : s.key = none) (allowed : s.keyAllowed = true) :
    s.mayBeKey? t rest =
      some
        { (s.behind taken rest false).emit t with
          key := some ⟨s.tokens.length, s.position, s.indents.head? == some s.position.column⟩ } := by
  rw [mayBeKey?, saveKey?, if_pos allowed, dropKey?_of_none none, inFlow_of_block block, Option.map_some,
    Option.bind_eq_bind, Option.bind_some]
  refine congrArg (fun s => some (emit t s)) (goTo_of_append taken ?_)
  exact all

end Scanner
end FilterEditor.Yaml
