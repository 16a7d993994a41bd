import FilterEditor.Proofs.Position
import FilterEditor.Proofs.Unambiguous

/-!
# Conforming sequences

Typing commits terms in an order that the grammar allows, with one exception. A token that may follow a
column is offered as soon as anything is pending where a column is expected, and a pending text of white
space is something. It is not committed before the token, though, so the token lands at the start,
behind a connective or behind an opening parenthesis: `Slips` says when.

Behind a whole condition nothing stays pending but white space (`Idle`): an edit there commits the
preview at once, so that a text in this place is a column.
-/

namespace FilterEditor

/-! ## Roles -/

/-- Whether a term of the second role may be typed behind one of the first, or first where there is
none. -/
def Role.leads : Option Role → Option Role → Bool
  | none, some column | none, some opening => true
  | some column, some operator | some operator, some value => true
  | some column, some joiner | some operator, some joiner => true
  | some value, some joiner | some closing, some joiner => true
  | some column, some closing | some operator, some closing => true
  | some value, some closing | some closing, some closing => true
  | some joiner, some column | some joiner, some opening | some opening, some column => true
  | _, _ => false

/-- Terms in an order in which they may be typed. -/
structure Conforming (ts : List Term) : Prop where
  first : ∀ t ∈ ts.head?, Role.leads none t.role?
  adjacent : ts.IsChain fun before t => Role.leads before.role? t.role?

variable {r : Option Role} {ts us : List Term} {t : Term}

/-- A term of the kind that is expected next may be typed. -/
lemma Role.leads_next (kind : t.kind = some (Role.next r)) : Role.leads r t.role? := by
  unfold Term.role?
  rw [kind]
  rcases r with _ | r
  · rfl
  · cases r <;> rfl

lemma Role.leads_operator_iff (ht : t ∈ Term.relationalOperators) :
    Role.leads r t.role? ↔ Role.next r = .operator := by
  have kinds : ∀ t ∈ Term.relationalOperators, t.kind = some .operator := by decide
  unfold Term.role?
  rw [kinds t ht]
  rcases r with _ | r
  · simp [Role.leads, Role.next]
  · cases r <;> simp [Role.leads, Role.next]

/-- A connective or a closing parenthesis may be typed wherever no column is expected. -/
lemma Role.leads_joiner_iff (ht : t ∈ joiners) :
    Role.leads r t.role? ↔ Role.next r ≠ .column := by
  have role : t.role? = some .closing ∨ t.role? = some .joiner := by
    rcases List.mem_cons.mp ht with rfl | ht
    · exact .inl rfl
    · have kinds : ∀ t ∈ Term.logicalOperators, t.kind = some .logicalOperator := by decide
      right
      unfold Term.role?
      rw [kinds t ht]
  rcases role with role | role <;> rw [role] <;> rcases r with _ | r
  · simp [Role.leads, Role.next]
  · cases r <;> simp [Role.leads, Role.next]
  · simp [Role.leads, Role.next]
  · cases r <;> simp [Role.leads, Role.next]

lemma Role.leads_opening (nests : Role.nests r) : Role.leads r Term.groupOpen.role? := by
  rcases r with _ | r
  · rfl
  · cases r <;> first | rfl | cases nests

lemma nextKind_of_isSome (h : t.kind.isSome) :
    Grammar.filter.nextKind t = some (Role.next t.role?) := by
  obtain ⟨k, kind⟩ := Option.isSome_iff_exists.mp h
  cases k with
  | groupingOperator =>
    simp only [Grammar.nextKind, Term.role?, kind]
    split <;> rfl
  | _ => simp only [Grammar.nextKind, Term.role?, kind, Role.next]

/-! ## Sequences -/

/-- One more term conforms just if it may be typed behind the last one. -/
lemma conforming_concat_iff :
    Conforming (ts ++ [t]) ↔
      Conforming ts ∧ Role.leads (ts.getLast?.bind Term.role?) t.role? := by
  have chain : (ts ++ [t]).IsChain (fun before t => Role.leads before.role? t.role?) ↔
      ts.IsChain (fun before t => Role.leads before.role? t.role?) ∧
        ∀ last ∈ ts.getLast?, Role.leads last.role? t.role? := by
    rw [List.isChain_append]
    refine ⟨fun h => ⟨h.1, fun last hl => h.2.2 last hl t rfl⟩, fun h => ⟨h.1, .singleton t, ?_⟩⟩
    intro last hl x hx
    cases hx
    exact h.2 last hl
  rcases List.eq_nil_or_concat' ts with rfl | ⟨init, last, rfl⟩
  · constructor
    · intro h
      exact ⟨⟨nofun, .nil⟩, h.first t rfl⟩
    · rintro ⟨_, leads⟩
      refine ⟨fun x hx => ?_, .singleton t⟩
      cases hx
      exact leads
  · have some : init ++ [last] ≠ [] := List.append_ne_nil_of_right_ne_nil _ nofun
    rw [List.getLast?_concat] at chain ⊢
    constructor
    · intro h
      obtain ⟨adjacent, leads⟩ := chain.mp h.adjacent
      refine ⟨⟨fun x hx => h.first x ?_, adjacent⟩, leads last rfl⟩
      rw [List.head?_append_of_ne_nil _ some]
      exact hx
    · rintro ⟨h, leads⟩
      refine ⟨fun x hx => h.first x ?_, chain.mpr ⟨h.adjacent, fun x hx => ?_⟩⟩
      · rw [List.head?_append_of_ne_nil _ some] at hx
        exact hx
      · cases hx
        exact leads

lemma Conforming.of_prefix (h : Conforming ts) (start : us <+: ts) : Conforming us := by
  refine ⟨fun t ht => h.first t ?_, h.adjacent.prefix start⟩
  obtain ⟨rest, rfl⟩ := start
  rw [List.head?_append, ht]
  rfl

/-! ## Tokens -/

namespace Grammar

variable {typed : Text} {context : Context} {c : Char}

/-- The characters that complete a token behind something pending, where a column is expected. -/
lemma continuations_behind_iff (pending : context.pending ≠ []) :
    (∃ t, filter.continuations [c] (some .column) context = ⟨[t], false⟩ ∧ t.label = [c]) ↔
      c ∈ ['=', ')', '&', '|'] := by
  have behind : offered [c] (some .column) context = operatorsAndJoiners [c] := by
    simp [offered, pending]
  constructor
  · rintro ⟨t, offers, label⟩
    have single : t.label ∈ [['='], ['>'], ['<'], [')'], ['&'], ['|']] := by
      have labels : ∀ t ∈ Term.relationalOperators ++ joiners, t.label.length = 1 →
          t.label ∈ [['='], ['>'], ['<'], [')'], ['&'], ['|']] := by
        decide
      have mem : t ∈ (filter.continuations [c] (some .column) context).terms := by
        rw [offers]
        exact List.mem_singleton.mpr rfl
      have mem := mem_offered_of_continuations mem
      rw [behind] at mem
      refine labels t (List.mem_append.mpr (mem_operatorsAndJoiners mem)) ?_
      rw [label]
      rfl
    rw [label] at single
    simp only [List.mem_cons, List.cons.injEq, and_true, List.not_mem_nil, or_false] at single
    -- What is left are the two signs that begin longer ones.
    have whole : (filter.continuations [c] (some .column) context).isPartial = false := by
      rw [offers]
    unfold continuations at whole
    rw [behind] at whole
    rcases single with rfl | rfl | rfl | rfl | rfl | rfl
    · decide
    · cases whole
    · cases whole
    · decide
    · decide
    · decide
  · intro token
    unfold continuations
    rw [behind]
    simp only [List.mem_cons, List.not_mem_nil, or_false] at token
    rcases token with rfl | rfl | rfl | rfl <;> exact ⟨_, rfl, rfl⟩

/-- Where a connective is expected, no text begins a longer operator. -/
lemma isPartial_logical (g : Grammar) (typed : Text) (context : Context) :
    (g.continuations typed (some .logicalOperator) context).isPartial = false := by
  cases g with
  | plain => rfl
  | filter =>
    unfold continuations
    dsimp only
    split
    · rfl
    · split <;> rfl

end Grammar

namespace Editor

variable {e e' : Editor} {c : Char}

/-! ## What typing keeps -/

/-- An editor for a filter whose position is the one that its last term asks for. -/
structure Orderly (e : Editor) : Prop where
  wellFormed : e.WellFormed
  grammar : e.grammar = .filter
  positioned : e.Positioned

/-- Behind a whole condition nothing is pending. -/
def Idle (e : Editor) : Prop := e.expected = some .logicalOperator → e.input.trimmed = []

/-- The role of the last term. -/
def lastRole (e : Editor) : Option Role := e.terms.last?.bind Term.role?

lemma Step.orderly {placed : Bool} {d : Change} (h : Step .editing e placed d) (he : e.Orderly) :
    d.editor.Orderly where
  wellFormed := h.wellFormed he.wellFormed
  grammar := h.frame.2.trans he.grammar
  positioned := h.positioned nofun he.positioned

lemma Keyed.orderly (h : Keyed e e') (he : e.Orderly) : e'.Orderly :=
  h.invariant (fun _ _ _ step => step.orderly) he

lemma Orderly.expected_eq (h : e.Orderly) : e.expected = some (Role.next e.lastRole) := by
  have positioned := h.positioned
  unfold Positioned expectedAfter at positioned
  rw [positioned, h.grammar, lastRole]
  cases last : e.terms.last? with
  | none => rfl
  | some t => exact nextKind_of_isSome (h.wellFormed.typed.kinds h.grammar t (List.mem_of_getLast? last))

lemma Orderly.next_eq (h : e.Orderly) {kind : Kind} (expected : e.expected = some kind) :
    Role.next e.lastRole = kind :=
  Option.some.inj (h.expected_eq.symm.trans expected)

lemma Followed.idle (h : Followed e e') (he : e.Orderly) : e'.Idle := by
  cases h with
  | waiting waits =>
    intro logical
    rcases waits with none | blank | bare | begins
    · have some := he.wellFormed.previewed.isSome_iff.mpr (.inr logical)
      rw [none] at some
      cases some
    · exact blank
    · have initial := he.wellFormed.typed.initial bare
      rw [logical, he.grammar] at initial
      cases initial
    · rw [logical, Grammar.isPartial_logical] at begins
      cases begins
  | previewed preview =>
    intro logical
    rcases expected_confirm he.wellFormed he.grammar preview with expected | expected <;>
      cases expected.symm.trans logical
  | exchanged => exact fun _ => exchange_blank e

lemma Keyed.idle (h : Keyed e e') (trailing : e.Trailing) (he : e.Orderly) (idle : e.Idle) :
    e'.Idle := by
  cases h with
  | exchange => exact fun _ => exchange_blank e
  | confirm preview =>
    intro logical
    rcases expected_confirm he.wellFormed he.grammar preview with expected | expected <;>
      cases expected.symm.trans logical
  | complete =>
    intro _
    split
    · exact exchange_blank e
    · rfl
  | edit keeps edited followed =>
    have step : Step .editing e true _ := .write keeps edited
    exact followed.idle (step.orderly he)
  | move keeps still edited =>
    obtain ⟨line, moved, rfl⟩ := edit_input edited
    have trimmed : line.trimmed = e.input.trimmed := congrArg Text.trim (still _ _ moved)
    exact fun logical => trimmed.trans (idle logical)
  | pop empty =>
    have blank : e.input.trimmed = [] := congrArg Text.trim (List.isEmpty_iff.mp empty)
    rcases pop_cases trailing.focus with eq | eq <;> rw [eq] <;> exact fun _ => blank
  | cycle => exact idle
  | require => exact idle

/-! ## What is committed -/

lemma conforming_add_iff (h : Conforming e.terms.terms) :
    Conforming (e.add t).editor.terms.terms ↔ Role.leads e.lastRole t.role? :=
  ⟨fun conforms => (conforming_concat_iff.mp conforms).2,
    fun leads => conforming_concat_iff.mpr ⟨h, leads⟩⟩

lemma Orderly.exchange (he : e.Orderly) (trailing : e.Trailing) (h : Conforming e.terms.terms) :
    Conforming e.exchange.editor.terms.terms := by
  by_cases blank : e.input.trimmed = []
  · rw [exchange_of_blank blank]
    exact h
  · obtain ⟨t, _, _, kind, eq⟩ := exchange_of_nonblank trailing.carried blank
    rw [eq]
    exact conforming_concat_iff.mpr ⟨h, Role.leads_next (kind.trans he.expected_eq)⟩

lemma Orderly.confirm (he : e.Orderly) (previewed : e.preview = some t)
    (h : Conforming e.terms.terms) : Conforming (e.add t).editor.terms.terms := by
  have kind := he.wellFormed.previewed.kind_eq previewed
  exact conforming_concat_iff.mpr ⟨h, Role.leads_next (kind.trans he.expected_eq)⟩

/-- Short of a token, every key commits terms that conform. -/
lemma Steady.conforming (h : Steady e e') (trailing : e.Trailing) (he : e.Orderly)
    (hc : Conforming e.terms.terms) : Conforming e'.terms.terms := by
  cases h with
  | exchange => exact he.exchange trailing hc
  | confirm previewed => exact he.confirm previewed hc
  | edit keeps edited followed =>
    have step : Step .editing e true _ := .write keeps edited
    have orderly := step.orderly he
    have trailing := trailing.edit edited
    obtain ⟨line, _, rfl⟩ := edit_input edited
    cases followed with
    | waiting => exact hc
    | previewed preview => exact orderly.confirm preview hc
    | exchanged => exact orderly.exchange trailing hc
  | move _ _ edited =>
    obtain ⟨line, _, rfl⟩ := edit_input edited
    exact hc
  | pop =>
    rcases pop_cases trailing.focus with eq | eq <;> rw [eq]
    · exact hc
    · have terms : (e.without (e.terms.length - 1)).reposition.terms.terms =
          e.terms.terms.dropLast := List.eraseIdx_length_sub_one
      rw [terms]
      exact hc.of_prefix (List.dropLast_prefix _)
  | cycle => exact hc
  | require => exact hc

lemma Steadily.conforming (h : Steadily e e') (trailing : e.Trailing) (he : e.Orderly)
    (hc : Conforming e.terms.terms) : Conforming e'.terms.terms := by
  induction h with
  | refl => exact hc
  | tail before key ih =>
    have keys := Steadily.keys before
    have orderly := keys.invariant (fun _ _ _ key => key.orderly) trailing he
    exact key.conforming (keys.trailing trailing) orderly ih

/-! ## Tokens behind white space -/

/-- A character completes a token behind white space, where a column is expected. -/
def Slips (e : Editor) : Message → Prop
  | .insertChar c =>
    e.expected = some .column ∧ e.input.text ≠ [] ∧ e.input.trimmed = [] ∧ c ∈ ['=', ')', '&', '|']
  | _ => False

lemma typedText_of_ne (h : e.expected ≠ some .operator) (c : Char) : e.typedText c = [c] :=
  if_neg h

/-- The tokens that a character may complete. -/
lemma token_cases (grammar : e.grammar = .filter) (typed : e.Typed)
    (offers : e.grammar.continuations (e.typedText c) e.expected (e.slotContext .input) =
      ⟨[t], false⟩) :
    t = Term.groupOpen ∧ e.expected = some .column ∧ Role.nests e.lastRole ∧ e.input.text = [] ∨
      t ∈ Term.relationalOperators ∧
        (e.expected = some .operator ∨ e.expected = some .column ∧ e.input.text ≠ []) ∨
      t ∈ joiners ∧ (e.expected = some .column → e.input.text ≠ []) := by
  have mem : t ∈ (e.grammar.continuations (e.typedText c) e.expected
      (e.slotContext .input)).terms := by
    rw [offers]
    exact List.mem_singleton.mpr rfl
  have mem := Grammar.mem_offered_of_continuations mem
  rcases typed.expected grammar with expected | expected | expected | expected <;>
    rw [expected] at mem ⊢ <;> simp only [Grammar.offered] at mem
  · by_cases pending : e.input.text = []
    · left
      have nests : t = Term.groupOpen ∧ Role.nests e.lastRole := by
        simp only [slotContext, pending, List.isEmpty_nil, if_true, preceding] at mem
        unfold lastRole
        split at mem
        · rename_i none
          rw [none]
          exact ⟨List.mem_singleton.mp mem, rfl⟩
        · rename_i last found
          split at mem
          · rename_i logical
            have kind : last.kind = some .logicalOperator := beq_iff_eq.mp logical
            rw [found, Option.bind_some]
            unfold Term.role?
            rw [kind]
            exact ⟨List.mem_singleton.mp mem, rfl⟩
          · cases mem
      exact ⟨nests.1, rfl, nests.2, pending⟩
    · right
      have some : (e.slotContext .input).pending.isEmpty = false :=
        List.isEmpty_eq_false_iff.mpr pending
      rw [some] at mem
      rcases Grammar.mem_operatorsAndJoiners mem with operator | joiner
      · exact .inl ⟨operator, .inr ⟨rfl, pending⟩⟩
      · exact .inr ⟨joiner, fun _ => pending⟩
  · right
    rcases Grammar.mem_operatorsAndJoiners mem with operator | joiner
    · exact .inl ⟨operator, .inl rfl⟩
    · exact .inr ⟨joiner, by rintro ⟨⟩⟩
  · exact .inr (.inr ⟨mem, by rintro ⟨⟩⟩)
  · exact .inr (.inr ⟨mem, by rintro ⟨⟩⟩)

/-- Behind white space the token is the next term, where none like it may be typed. -/
lemma not_conforming_of_slips (h : e.Slips (.insertChar c)) (he : e.Orderly)
    (hc : Conforming e.terms.terms) : ¬ Conforming (e.insertChar .input c).editor.terms.terms := by
  obtain ⟨expected, pending, blank, token⟩ := h
  have pending' : (e.slotContext .input).pending ≠ [] := pending
  obtain ⟨t, offers, label⟩ := (Grammar.continuations_behind_iff pending').mpr token
  have typed : e.typedText c = [c] := typedText_of_ne (by rw [expected]; rintro ⟨⟩) c
  have space : c ≠ ' ' := by
    rintro rfl
    exact absurd token (by decide)
  rw [← typed, ← expected, ← he.grammar] at offers
  rw [insertChar_token space offers (label.trans typed.symm)]
  have next := he.next_eq expected
  have stuck : Role.leads e.lastRole t.role? = false ∧ e.expected ≠ t.kind := by
    have kinds : ∀ t ∈ Term.relationalOperators ++ joiners, t.kind ≠ some .column := by decide
    rw [expected]
    rcases token_cases he.grammar he.wellFormed.typed offers with
      ⟨_, _, _, bare⟩ | ⟨operator, _⟩ | ⟨joiner, _⟩
    · exact (pending bare).elim
    · refine ⟨?_, (kinds t (List.mem_append_left _ operator)).symm⟩
      rw [Bool.eq_false_iff, Ne, Role.leads_operator_iff operator, next]
      rintro ⟨⟩
    · refine ⟨?_, (kinds t (List.mem_append_right _ joiner)).symm⟩
      rw [Bool.eq_false_iff, Ne, Role.leads_joiner_iff joiner, next]
      exact fun h => h rfl
  rw [if_pos stuck.2, exchange_of_blank blank, conforming_add_iff hc, stuck.1]
  exact Bool.false_ne_true

lemma expected_exchange (grammar : e.grammar = .filter) (trailing : e.Trailing)
    (nonblank : e.input.trimmed ≠ []) :
    ∃ t, t.kind = e.expected ∧ e.exchange.editor.expected = Grammar.filter.nextKind t := by
  obtain ⟨t, _, _, kind, eq⟩ := exchange_of_nonblank trailing.carried nonblank
  refine ⟨t, kind, ?_⟩
  rw [eq, ← grammar]
  exact expected_add { e with carried := none } t

/-- Behind what is pending a connective or a closing parenthesis may be typed, unless that is white
space where a column is expected. -/
lemma expected_exchange_ne (he : e.Orderly) (trailing : e.Trailing) (idle : e.Idle)
    (settled : e.expected = some .column → e.input.trimmed ≠ []) :
    e.exchange.editor.expected ≠ some .column := by
  by_cases blank : e.input.trimmed = []
  · rw [exchange_of_blank blank]
    exact fun column => settled column blank
  · obtain ⟨t, kind, next⟩ := expected_exchange he.grammar trailing blank
    rw [next]
    unfold Grammar.nextKind
    dsimp only
    rw [kind]
    rcases he.wellFormed.typed.expected he.grammar with expected | expected | expected | expected
    · rw [expected]
      nofun
    · rw [expected]
      nofun
    · rw [expected]
      nofun
    · exact (blank (idle expected)).elim

/-- What is pending before a token, where a column is expected, is not white space unless the character
slips. -/
lemma nonblank_of_offers (he : e.Orderly) (slips : ¬ e.Slips (.insertChar c))
    (offers : e.grammar.continuations (e.typedText c) e.expected (e.slotContext .input) =
      ⟨[t], false⟩) (label : t.label = e.typedText c) (expected : e.expected = some .column)
    (pending : e.input.text ≠ []) : e.input.trimmed ≠ [] := by
  intro blank
  have typed : e.typedText c = [c] := typedText_of_ne (by rw [expected]; nofun) c
  refine slips ⟨expected, pending, blank, ?_⟩
  have pending : (e.slotContext .input).pending ≠ [] := pending
  apply (Grammar.continuations_behind_iff pending).mp
  refine ⟨t, ?_, label.trans typed⟩
  rw [← typed, ← expected, ← he.grammar]
  exact offers

lemma conforming_token (trailing : e.Trailing) (he : e.Orderly) (idle : e.Idle)
    (hc : Conforming e.terms.terms) (slips : ¬ e.Slips (.insertChar c))
    (offers : e.grammar.continuations (e.typedText c) e.expected (e.slotContext .input) =
      ⟨[t], false⟩) (label : t.label = e.typedText c) :
    Conforming ((if e.expected ≠ t.kind then e.exchange.editor
      else { e with input := {} }).add t).editor.terms.terms := by
  have exchanged : e.exchange.editor.Orderly := (Keyed.exchange (e := e)).orderly he
  have conforming := he.exchange trailing hc
  have nonblank := nonblank_of_offers he slips offers label
  have kinds : ∀ t ∈ Term.relationalOperators, t.kind = some .operator := by decide
  rcases token_cases he.grammar he.wellFormed.typed offers with
    ⟨rfl, expected, nests, bare⟩ | ⟨operator, expected | ⟨expected, pending⟩⟩ | ⟨joiner, pending⟩
  · have blank : e.input.trimmed = [] := congrArg Text.trim bare
    rw [if_pos (by rw [expected]; nofun), exchange_of_blank blank, conforming_add_iff hc]
    exact Role.leads_opening nests
  · rw [if_neg (not_not.mpr (expected.trans (kinds t operator).symm))]
    exact (conforming_add_iff (e := { e with input := {} }) hc).mpr
      ((Role.leads_operator_iff operator).mpr (he.next_eq expected))
  -- The operator stands behind the column that was pending.
  · rw [if_pos (by rw [expected, kinds t operator]; nofun), conforming_add_iff conforming,
      Role.leads_operator_iff operator]
    obtain ⟨x, kind, next⟩ := expected_exchange he.grammar trailing (nonblank expected pending)
    unfold Grammar.nextKind at next
    dsimp only at next
    rw [kind, expected] at next
    exact exchanged.next_eq next
  · by_cases kind : e.expected = t.kind
    · rw [if_neg (not_not.mpr kind)]
      have other : ∀ t ∈ joiners, t.kind ≠ some .column := by decide
      refine (conforming_add_iff (e := { e with input := {} }) hc).mpr
        ((Role.leads_joiner_iff joiner).mpr fun next => ?_)
      exact other t joiner (kind.symm.trans (he.expected_eq.trans (congrArg some next)))
    · rw [if_pos kind, conforming_add_iff conforming, Role.leads_joiner_iff joiner]
      intro next
      have ne := expected_exchange_ne he trailing idle fun column => nonblank column (pending column)
      rw [exchanged.expected_eq, next] at ne
      exact ne rfl

lemma conforming_insertChar_iff (trailing : e.Trailing) (he : e.Orderly) (idle : e.Idle)
    (hc : Conforming e.terms.terms) (c : Char) :
    Conforming (e.insertChar .input c).editor.terms.terms ↔ ¬ e.Slips (.insertChar c) := by
  constructor
  · exact fun conforms slips => not_conforming_of_slips slips he hc conforms
  · intro slips
    rcases insertChar_cases trailing c with steadily | ⟨t, offers, label, eq⟩
    · exact steadily.conforming trailing he hc
    · rw [eq]
      exact conforming_token trailing he idle hc slips offers label

/-! ## Runs -/

/-- What every stroke keeps. -/
structure Typable (e : Editor) : Prop where
  trailing : e.Trailing
  orderly : e.Orderly
  idle : e.Idle

lemma Keyed.typable (h : Keyed e e') (he : e.Typable) : e'.Typable :=
  ⟨h.trailing he.trailing, h.orderly he.orderly, h.idle he.trailing he.orderly he.idle⟩

/-- A stroke commits terms that conform, unless it slips. -/
lemma conforming_respond_iff {stroke : Message} (typing : stroke.isTyping)
    (single : ∀ text, stroke ≠ .insertText text) (he : e.Typable) (hc : Conforming e.terms.terms) :
    Conforming (e.respond stroke).editor.terms.terms ↔ ¬ e.Slips stroke := by
  cases stroke with
  | insertChar c =>
    rw [respond_insertChar he.trailing]
    exact conforming_insertChar_iff he.trailing he.orderly he.idle hc c
  | insertText text => exact (single text rfl).elim
  | _ =>
    have steadily := steadily_respond typing nofun nofun he.trailing
    exact ⟨fun _ slips => slips, fun _ => steadily.conforming he.trailing he.orderly hc⟩

/-- After any typing into an empty filter the terms conform, all along its strokes, just if no stroke of
it completes a token behind white space. -/
theorem conforming_typed_iff (s : Settings) {messages : List Message}
    (typing : ∀ message ∈ messages, message.isTyping) :
    (new s .filter).run (messages.flatMap Message.strokes) = (new s .filter).run messages ∧
      ((∀ n, Conforming
          ((new s .filter).run ((messages.flatMap Message.strokes).take n)).terms.terms) ↔
        ∀ n stroke, (messages.flatMap Message.strokes)[n]? = some stroke →
          ¬ ((new s .filter).run ((messages.flatMap Message.strokes).take n)).Slips stroke) := by
  have started : Started (new s .filter) := .new s .filter
  have typable : (new s .filter).Typable :=
    ⟨⟨rfl, rfl, rfl⟩, ⟨started.wellFormed, rfl, started.positioned⟩, nofun⟩
  refine ⟨run_strokes _ messages, prefixes_iff (P := fun e => Conforming e.terms.terms) ?_ typable
    ⟨nofun, .nil⟩⟩
  intro stroke mem e he hc
  obtain ⟨message, hm, hs⟩ := List.mem_flatMap.mp mem
  have typing := isTyping_strokes (typing message hm) hs
  refine ⟨?_, conforming_respond_iff typing (ne_insertText_of_strokes hs) he hc⟩
  exact (keys_respond typing he.trailing).invariant (fun _ _ _ key => key.typable) he.trailing he

/-- A tab and an ampersand in an empty filter. -/
theorem conforming_typed_tab :
    let messages : List Message := [.insertText ['\t', '&']]
    (∀ message ∈ messages, message.isTyping) ∧
      ¬ ∀ n, Conforming
        ((new {} .filter).run ((messages.flatMap Message.strokes).take n)).terms.terms := by
  intro messages
  have typing : ∀ message ∈ messages, message.isTyping := by decide
  refine ⟨typing, fun conforming => ?_⟩
  refine (conforming_typed_iff {} typing).2.mp conforming 1 (.insertChar '&') rfl ?_
  exact ⟨rfl, nofun, rfl, by decide⟩

end Editor
end FilterEditor
