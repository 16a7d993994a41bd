import FilterEditor.Proofs.Carried
import FilterEditor.Proofs.Visiting

/-!
# Asking for a value

While a value is edited, a completer is asked to continue it. The request names a column and an operator,
and finds them by counting back from the slot: the operator one place before it, the column two. In an
editor for a filter these are the column and the operator of the condition that the value belongs to,
however deep it is nested and whatever column stands alone before it (`Recital.value`).
-/

namespace FilterEditor

variable {c : Char} {index place : Nat} {t column operator : Term}

namespace Editor

variable {e : Editor} {slot : Slot}

/-! ## Values -/

/-- Any text is a value. -/
lemma check_value (kind : e.slotKind slot = some .value) (text : Text) :
    e.check slot text = .valid := by
  rw [check, kind]
  cases e.grammar <;> rfl

/-- A valid draft without a mark is shown as valid, and a request follows. -/
lemma afterTermEdit_of_valid (clean : e.validity = none)
    (valid : e.check slot (e.slotText slot) = .valid) :
    e.afterTermEdit slot =
      ⟨e, .setValidity slot none :: e.requestEffects slot (e.slotText slot)⟩ := by
  have same : { e with validity := none : Editor } = e := by rw [← clean]
  simp only [afterTermEdit, valid, same]

lemma searchBefore_term (distance : Nat) (held : e.terms.get? place = some t) :
    e.searchBefore (.term (place + distance)) distance = some t.search := by
  simp [searchBefore, Slot.index?, held]

/-- A value slot asks with the searches of the two terms before it. -/
lemma requestEffects_value (completes : e.settings.termCompletion)
    (focus : e.focus = .term (place + 2)) (kind : e.slotKind (.term (place + 2)) = some .value)
    (first : e.terms.get? place = some column) (second : e.terms.get? (place + 1) = some operator)
    (label : Text) :
    e.requestEffects (.term (place + 2)) label =
      [.notify (.complete
        ⟨label, some .value, some (place + 2), some column.search, some operator.search⟩)] := by
  have two : e.searchBefore (.term (place + 2)) 2 = some column.search :=
    searchBefore_term 2 first
  have one : e.searchBefore (.term (place + 2)) 1 = some operator.search :=
    searchBefore_term 1 second
  have asks : e.settings.termCompletion && e.focus == .term (place + 2) := by simp [completes, focus]
  rw [requestEffects, if_pos asks]
  simp only [kind, two, one]
  rfl

/-- A character that is typed into an untouched value slot goes behind its text; the slot is valid, and
the request for it is all that listeners are told. -/
lemma insertChar_value (completes : e.settings.termCompletion)
    (first : e.terms.get? place = some column) (second : e.terms.get? (place + 1) = some operator)
    (held : e.terms.get? (place + 2) = some t) (value : t.kind = some .value)
    (accepts : Line.accepts c) :
    let text := (Line.ofText t.label).text ++ [c]
    (e.visiting (place + 2) t).insertChar (.term (place + 2)) c =
      ⟨{ e.visiting (place + 2) t with draft := some ⟨text, text.length⟩ },
        [.writeValue (.term (place + 2)) text, .setValidity (.term (place + 2)) none,
          .notify (.complete
            ⟨text, some .value, some (place + 2), some column.search, some operator.search⟩)]⟩ := by
  intro text
  let typed : Editor := { e.visiting (place + 2) t with draft := some ⟨text, text.length⟩ }
  have edited : (e.visiting (place + 2) t).edit? (.term (place + 2)) (Line.insertChar? c) =
      some typed := by
    have inserted : (Line.ofText t.label).insertChar? c = some ⟨text, text.length⟩ :=
      Line.insertChar_end accepts _
    show ((Line.ofText t.label).insertChar? c).map _ = _
    rw [inserted]
    rfl
  have drafted : typed.slotText (.term (place + 2)) = text := (slotText_draft rfl rfl).trans rfl
  have kind : typed.slotKind (.term (place + 2)) = some .value := by
    show (e.terms.get? (place + 2)).bind (·.kind) = some .value
    rw [held, Option.bind_some, value]
  have followed : typed.afterTermEdit (.term (place + 2)) = _ :=
    afterTermEdit_of_valid rfl (check_value kind _)
  have asked := requestEffects_value (e := typed) completes rfl kind first second text
  rw [drafted, asked] at followed
  rw [insertChar_term, insertPlain, editSlot, edited]
  show Change.andThen ⟨typed, [.writeValue _ (typed.slotText _)]⟩ (afterTermEdit _) = _
  rw [Change.andThen, followed, drafted]
  rfl

lemma Holds.terms {tree : Tree} (holds : Holds tree e) : e.terms.terms = tree.terms := by
  obtain ⟨_, _, rfl⟩ := holds.eq_restore
  rfl

lemma Holds.focus {tree : Tree} (holds : Holds tree e) : e.focus = .input := by
  obtain ⟨_, _, rfl⟩ := holds.eq_restore
  rfl

/-- Typing into the slot of a value, in an editor for a filter, asks once: with the text of the draft,
and with the searches of the column and the operator that stand before the value in its own condition.
-/
theorem request_names_condition {tree : Tree} (holds : Holds tree e)
    (completes : e.settings.termCompletion) (held : e.terms.get? index = some t)
    (value : t.kind = some .value) (accepts : Line.accepts c) :
    let messages : List Message := [.focused (.term index), .insertChar c]
    let text := (Line.ofText t.label).text ++ [c]
    (e.run messages).slotText (.term index) = text ∧
      ∃ condition place column operator,
        Stands .compact tree.conditions tree.terms condition place ∧
        condition.terms .compact = [column, operator, t] ∧ index = place + 2 ∧
        e.terms.get? (index - 2) = some column ∧ column.kind = some .column ∧
        e.terms.get? (index - 1) = some operator ∧ operator.kind = some .operator ∧
        e.produced messages =
          [.writeValue (.term index) text, .setValidity (.term index) none,
            .notify (.complete
              ⟨text, some .value, some index, some column.search, some operator.search⟩)] := by
  intro messages text
  have at_place : ∀ i, e.terms.get? i = tree.terms[i]? := fun i => congrArg (·[i]?) holds.terms
  rw [at_place] at held
  obtain ⟨condition, place, stands, rfl, terms⟩ := tree.recital_terms.value held value
  have first : e.terms.get? place = some ((Term.column condition.column).withLabel _) :=
    (at_place place).trans (stands.getElem? (by rw [terms]; rfl : _[0]? = _))
  have second : e.terms.get? (place + 1) = some (Term.operator condition.sign) :=
    (at_place _).trans (stands.getElem? (by rw [terms]; rfl : _[1]? = _))
  have held := (at_place _).trans held
  have entered : e.respond (.focused (.term (place + 2))) = (e.visiting (place + 2) t).unchanged :=
    focused_term holds.focus held
  have typed : (e.respond (.focused (.term (place + 2)))).editor.respond (.insertChar c) =
      (e.visiting (place + 2) t).insertChar (.term (place + 2)) c := by
    rw [entered]
    rfl
  rw [insertChar_value completes first second held value accepts] at typed
  have drafted : (e.run messages).slotText (.term (place + 2)) = text := by
    show ((e.respond _).editor.respond (.insertChar c)).editor.slotText _ = text
    rw [typed]
    exact (slotText_draft rfl rfl).trans rfl
  refine ⟨drafted, condition, place, _, _, stands, terms, rfl, first, rfl, second, rfl, ?_⟩
  rw [produced, produced, produced, typed, entered]
  rfl

/-- The second condition of a nested chain, behind a column that stands alone; its column is shown under
another name than it is searched for. -/
theorem request_names_condition_nested :
    let tree := Tree.chain .all [.condition ⟨['f'], ['='], .flag true, none⟩,
      .chain .any [.condition ⟨['a'], ['<'], .text ['v'], none⟩,
        .condition ⟨['b'], ['>'], .text ['w'], some ['B']⟩]]
    let e := ofTree { termCompletion := true } tree
    e.settings.termCompletion ∧ e.terms.get? 9 = some (Term.value ['w']) ∧
      e.produced [.focused (.term 9), .insertChar ' '] =
        [.writeValue (.term 9) ['w', ' '], .setValidity (.term 9) none,
          .notify (.complete ⟨['w', ' '], some .value, some 9, some ['b'], some ['>']⟩)] := by
  intro tree e
  have held : e.terms.get? 9 = some (Term.value ['w']) := by decide
  have accepts : Line.accepts ' ' := by decide
  obtain ⟨_, _, _, column, operator, _, _, _, first, _, second, _, asked⟩ :=
    request_names_condition (.start { termCompletion := true }) rfl held rfl accepts
  cases first
  cases second
  exact ⟨rfl, held, asked⟩

end Editor
end FilterEditor
