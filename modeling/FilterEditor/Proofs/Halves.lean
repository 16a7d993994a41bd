import FilterEditor.Proofs.Line

/-!
# Lines as two halves

A line with its cursor is a pair of texts: the characters before the cursor and those behind it. Every
operation on lines is an operation on such pairs, and returns the same (`operate_line`).

A text that is kept in UTF-8 is changed at byte offsets, which are counted anew from the cursor before each
change. An offset inside of a character, or past the end, would stop the program; `bytes_line` says that
none is ever met, whatever the width of the characters.
-/

namespace FilterEditor

namespace Text

variable {before behind text : Text} {c : Char} {n : Nat}

/-! ## Byte offsets -/

/-- How many bytes a text takes in UTF-8. -/
def byteLength (text : Text) : Nat := (String.ofList text).utf8ByteSize

/-- Whether a byte offset is that of a character of a text, or of its end. -/
def IsBoundary (n : Nat) (text : Text) : Prop := (String.Pos.Raw.mk n).IsValid (String.ofList text)

/-- The characters of a text with their byte offsets, the first of which is given. -/
def charOffsets (n : Nat) : Text → List (Nat × Char)
  | [] => []
  | c :: rest => (n, c) :: charOffsets (n + c.utf8Size) rest

/-- The byte offset of the character at an index, or of the end where there is none. -/
def byteOffset (index : Nat) (text : Text) : Nat :=
  ((charOffsets 0 text)[index]?.map (·.1)).getD text.byteLength

/-- The parts of a text before and behind a byte offset, unless it lies inside of a character or past the
end. -/
def splitBytes? : Nat → Text → Option (Text × Text)
  | 0, text => some ([], text)
  | _ + 1, [] => none
  | n + 1, c :: rest =>
    if c.utf8Size ≤ n + 1 then
      (splitBytes? (n + 1 - c.utf8Size) rest).map fun parts => (c :: parts.1, parts.2)
    else none

/-- Inserts a character at a byte offset. -/
def insertAt? (n : Nat) (c : Char) (text : Text) : Option Text :=
  (text.splitBytes? n).map fun parts => parts.1 ++ c :: parts.2

/-- Removes the character at a byte offset. -/
def removeAt? (n : Nat) (text : Text) : Option Text :=
  match text.splitBytes? n with
  | some (before, _ :: behind) => some (before ++ behind)
  | _ => none

lemma byteLength_nil : byteLength [] = 0 := rfl

lemma byteLength_append (before behind : Text) :
    byteLength (before ++ behind) = byteLength before + byteLength behind := by
  rw [byteLength, String.ofList_append, String.utf8ByteSize_append]
  rfl

lemma byteLength_cons (c : Char) (rest : Text) :
    byteLength (c :: rest) = c.utf8Size + byteLength rest := by
  have single : byteLength [c] = c.utf8Size := by
    rw [byteLength, ← String.singleton_eq_ofList, String.utf8ByteSize_singleton]
  rw [← single, ← byteLength_append]
  rfl

lemma byteLength_pos (c : Char) (rest : Text) : 0 < byteLength (c :: rest) := by
  have pos := c.utf8Size_pos
  rw [byteLength_cons]
  omega

/-- Between two parts of a text there is a boundary, where both are told apart. -/
lemma splitBytes?_append (before behind : Text) :
    splitBytes? (byteLength before) (before ++ behind) = some (before, behind) := by
  induction before with
  | nil =>
    rw [byteLength_nil, List.nil_append, splitBytes?]
  | cons c rest ih =>
    have pos := c.utf8Size_pos
    have size := byteLength_cons c rest
    obtain ⟨n, succ⟩ : ∃ n, byteLength (c :: rest) = n + 1 :=
      ⟨byteLength (c :: rest) - 1, by omega⟩
    have le : c.utf8Size ≤ n + 1 := by omega
    have left : n + 1 - c.utf8Size = byteLength rest := by omega
    rw [succ, List.cons_append, splitBytes?, if_pos le, left, ih]
    rfl

lemma eq_of_splitBytes? (split : splitBytes? n text = some (before, behind)) :
    text = before ++ behind ∧ n = byteLength before := by
  induction text generalizing n before behind with
  | nil =>
    cases n with
    | zero =>
      cases split
      exact ⟨rfl, rfl⟩
    | succ n => cases split
  | cons c rest ih =>
    cases n with
    | zero =>
      cases split
      exact ⟨rfl, rfl⟩
    | succ n =>
      rw [splitBytes?] at split
      split at split
      · rename_i le
        obtain ⟨parts, found, eq⟩ := Option.map_eq_some_iff.mp split
        obtain ⟨text, size⟩ := ih found
        cases eq
        rw [byteLength_cons]
        exact ⟨congrArg (c :: ·) text, by omega⟩
      · cases split

/-- Boundaries are the offsets at which a text falls into two parts. -/
lemma isBoundary_iff : IsBoundary n text ↔ ∃ parts, splitBytes? n text = some parts := by
  rw [IsBoundary, String.Pos.Raw.isValid_ofList]
  constructor
  · rintro ⟨i, size⟩
    have split := splitBytes?_append (text.take i) (text.drop i)
    rw [List.take_append_drop] at split
    have size : n = byteLength (text.take i) := size
    exact ⟨_, size ▸ split⟩
  · rintro ⟨⟨before, behind⟩, split⟩
    obtain ⟨rfl, rfl⟩ := eq_of_splitBytes? split
    exact ⟨before.length, by rw [List.take_left]; rfl⟩

/-- A character is inserted just at boundaries. -/
lemma insertAt?_isSome_iff : (insertAt? n c text).isSome ↔ IsBoundary n text := by
  rw [insertAt?, Option.isSome_map, Option.isSome_iff_exists, isBoundary_iff]

/-- A character is removed just at boundaries before the end. -/
lemma removeAt?_isSome_iff : (removeAt? n text).isSome ↔ IsBoundary n text ∧ n < byteLength text := by
  rw [isBoundary_iff]
  unfold removeAt?
  constructor
  · intro removed
    split at removed
    · rename_i before c behind split
      obtain ⟨rfl, rfl⟩ := eq_of_splitBytes? split
      have pos := byteLength_pos c behind
      rw [byteLength_append]
      exact ⟨⟨_, split⟩, by omega⟩
    · cases removed
  · rintro ⟨⟨⟨before, behind⟩, split⟩, lt⟩
    obtain ⟨rfl, rfl⟩ := eq_of_splitBytes? split
    cases behind with
    | nil =>
      rw [List.append_nil] at lt
      exact absurd lt (Nat.lt_irrefl _)
    | cons c behind =>
      rw [split]
      rfl

lemma charOffsets_append (n : Nat) (before : Text) (c : Char) (behind : Text) :
    (charOffsets n (before ++ c :: behind))[before.length]? = some (n + byteLength before, c) := by
  induction before generalizing n with
  | nil => rfl
  | cons d rest ih =>
    rw [List.cons_append, charOffsets, List.length_cons, List.getElem?_cons_succ, ih,
      byteLength_cons, Nat.add_assoc]

lemma length_charOffsets (n : Nat) (text : Text) : (charOffsets n text).length = text.length := by
  induction text generalizing n with
  | nil => rfl
  | cons c rest ih => exact congrArg Nat.succ (ih _)

/-- The offset of a character counts the bytes of those before it. -/
lemma byteOffset_append (before behind : Text) :
    byteOffset before.length (before ++ behind) = byteLength before := by
  cases behind with
  | nil =>
    have past : (charOffsets 0 before)[before.length]? = none :=
      List.getElem?_eq_none (Nat.le_of_eq (length_charOffsets 0 before))
    rw [List.append_nil, byteOffset, past]
    rfl
  | cons c behind =>
    rw [byteOffset, charOffsets_append, Nat.zero_add]
    rfl

lemma insertAt?_append (c : Char) (before behind : Text) :
    insertAt? (byteOffset before.length (before ++ behind)) c (before ++ behind) =
      some (before ++ c :: behind) := by
  rw [byteOffset_append, insertAt?, splitBytes?_append]
  rfl

lemma removeAt?_append (c : Char) (before behind : Text) :
    removeAt? (byteOffset before.length (before ++ c :: behind)) (before ++ c :: behind) =
      some (before ++ behind) := by
  rw [byteOffset_append, removeAt?, splitBytes?_append]

end Text

/-! ## Operations -/

/-- What can be done with a line. -/
inductive Line.Operation where
  | new
  | ofText (text : Text)
  | insertChar (c : Char)
  | insertText (text : Text)
  | deleteBackward
  | deleteForward
  | moveLeft
  | moveRight
  | moveStart
  | moveEnd
  | clear
  | setText (text : Text)

/-- Operations one after the other, with what they return. -/
def Line.Operation.run (operate : α → Operation → Option Bool × α) :
    List Operation → α → List (Option Bool) × α
  | [], a => ([], a)
  | operation :: operations, a =>
    let (flag, a) := operate a operation
    let (flags, a) := run operate operations a
    (flag :: flags, a)

/-- Operations one after the other, each of which may stop the program. -/
def Line.Operation.run? (operate? : α → Operation → Option (Option Bool × α)) :
    List Operation → α → Option (List (Option Bool) × α)
  | [], a => some ([], a)
  | operation :: operations, a => do
    let (flag, a) ← operate? a operation
    let (flags, a) ← run? operate? operations a
    some (flag :: flags, a)

namespace Line

/-- Whether a change was made, and the line then. -/
def tried (l : Line) (changed : Option Line) : Option Bool × Line :=
  (some changed.isSome, changed.getD l)

/-- What an operation returns, if anything, and the line behind it. -/
def operate (l : Line) : Operation → Option Bool × Line
  | .new | .clear => (none, {})
  | .ofText text | .setText text => (none, .ofText text)
  | .insertChar c => l.tried (l.insertChar? c)
  | .insertText text => l.tried (l.insertText? text)
  | .deleteBackward => l.tried l.deleteBackward?
  | .deleteForward => l.tried l.deleteForward?
  | .moveLeft => l.tried l.moveLeft?
  | .moveRight => l.tried l.moveRight?
  | .moveStart => (none, l.moveStart)
  | .moveEnd => (none, l.moveEnd)

lemma sound_foldl_insertChar {l : Line} (h : l.Sound) (text : Text) :
    (text.foldl (fun l c => (l.insertChar? c).getD l) l).Sound := by
  induction text generalizing l with
  | nil => exact h
  | cons c rest ih =>
    apply ih
    show ((l.insertChar? c).getD l).Sound
    cases inserted : l.insertChar? c with
    | none => exact h
    | some l' => exact keeps_insertChar c l l' h inserted

lemma keeps_insertText (text : Text) : Keeps (insertText? text) := by
  intro l l' h e
  unfold insertText? at e
  split at e
  · cases e
    exact sound_foldl_insertChar h text
  · cases e

lemma Sound.tried {l : Line} {change : Line → Option Line} (h : l.Sound) (keeps : Keeps change) :
    (l.tried (change l)).2.Sound := by
  cases changed : change l with
  | none => exact h
  | some l' => exact keeps l l' h changed

/-- Operations lead from sound lines to sound lines. -/
lemma Sound.operate {l : Line} (h : l.Sound) (operation : Operation) : (l.operate operation).2.Sound := by
  cases operation with
  | new => exact sound_empty
  | clear => exact sound_empty
  | ofText text => exact sound_ofText text
  | setText text => exact sound_ofText text
  | insertChar c => exact h.tried (keeps_insertChar c)
  | insertText text => exact h.tried (keeps_insertText text)
  | deleteBackward => exact h.tried keeps_deleteBackward
  | deleteForward => exact h.tried keeps_deleteForward
  | moveLeft => exact h.tried keeps_moveLeft
  | moveRight => exact h.tried keeps_moveRight
  | moveStart => exact keeps_moveStart l _ h rfl
  | moveEnd => exact keeps_moveEnd l _ h rfl

lemma Sound.run {l : Line} (h : l.Sound) (operations : List Operation) :
    (Operation.run Line.operate operations l).2.Sound := by
  induction operations generalizing l with
  | nil => exact h
  | cons operation operations ih => exact ih (h.operate operation)

/-! ### At byte offsets -/

/-- Inserts a character at the byte offset of the cursor, unless it is a line break. -/
def insertCharAt? (c : Char) (l : Line) : Option (Bool × Line) :=
  if accepts c then do
    let text ← l.text.insertAt? (l.text.byteOffset l.cursor) c
    some (true, ⟨text, l.cursor + 1⟩)
  else some (false, l)

/-- Inserts one more character at the byte offset of the cursor; also says whether any was inserted. -/
def insertMoreAt? (r : Bool × Line) (c : Char) : Option (Bool × Line) :=
  (r.2.insertCharAt? c).map fun next => (r.1 || next.1, next.2)

/-- Inserts characters one after the other, each at the byte offset of the cursor. -/
def insertTextAt? (text : Text) (l : Line) : Option (Bool × Line) :=
  text.foldlM insertMoreAt? (false, l)

/-- Removes the character before the cursor at its byte offset. -/
def deleteBackwardAt? (l : Line) : Option (Bool × Line) :=
  if l.cursor = 0 then some (false, l)
  else do
    let cursor := l.cursor - 1
    let text ← l.text.removeAt? (l.text.byteOffset cursor)
    some (true, ⟨text, cursor⟩)

/-- Removes the character behind the cursor at its byte offset. -/
def deleteForwardAt? (l : Line) : Option (Bool × Line) :=
  if l.atEnd then some (false, l)
  else do
    let text ← l.text.removeAt? (l.text.byteOffset l.cursor)
    some (true, { l with text })

/-- An operation on a line whose text is changed at byte offsets. -/
def operateAt? (l : Line) : Operation → Option (Option Bool × Line)
  | .insertChar c => (l.insertCharAt? c).map fun r => (some r.1, r.2)
  | .insertText text => (l.insertTextAt? text).map fun r => (some r.1, r.2)
  | .deleteBackward => l.deleteBackwardAt?.map fun r => (some r.1, r.2)
  | .deleteForward => l.deleteForwardAt?.map fun r => (some r.1, r.2)
  | operation => some (l.operate operation)

end Line

/-! ## Halves -/

/-- A text that is edited at the place between its two parts. -/
structure Halves where
  left : Text := []
  right : Text := []

namespace Halves

variable {h : Halves} {left right : Text}

/-- What an operation returns, if anything, and the halves behind it. -/
def operate : Halves → Line.Operation → Option Bool × Halves
  | _, .new | _, .clear => (none, ⟨[], []⟩)
  | _, .ofText text | _, .setText text => (none, ⟨text.filter Line.accepts, []⟩)
  | ⟨left, right⟩, .insertChar c =>
    if Line.accepts c then (some true, ⟨left ++ [c], right⟩) else (some false, ⟨left, right⟩)
  | ⟨left, right⟩, .insertText text =>
    (some (text.any Line.accepts), ⟨left ++ text.filter Line.accepts, right⟩)
  | ⟨left, right⟩, .deleteBackward =>
    if left.isEmpty then (some false, ⟨left, right⟩) else (some true, ⟨left.dropLast, right⟩)
  | ⟨left, right⟩, .deleteForward =>
    if right.isEmpty then (some false, ⟨left, right⟩) else (some true, ⟨left, right.tail⟩)
  | ⟨left, right⟩, .moveLeft =>
    match left.getLast? with
    | none => (some false, ⟨left, right⟩)
    | some c => (some true, ⟨left.dropLast, c :: right⟩)
  | ⟨left, right⟩, .moveRight =>
    match right with
    | [] => (some false, ⟨left, right⟩)
    | c :: rest => (some true, ⟨left ++ [c], rest⟩)
  | ⟨left, right⟩, .moveStart => (none, ⟨[], left ++ right⟩)
  | ⟨left, right⟩, .moveEnd => (none, ⟨left ++ right, []⟩)

/-- The line of two halves: the cursor stands between them. -/
def line (h : Halves) : Line := ⟨h.left ++ h.right, h.left.length⟩

/-! ### Single operations -/

lemma line_full (text : Text) : line ⟨text, []⟩ = ⟨text, text.length⟩ := by
  rw [line, List.append_nil]

/-- Moving a character from one half to the other moves the cursor only. -/
lemma line_concat (left : Text) (c : Char) (right : Text) :
    line ⟨left ++ [c], right⟩ = ⟨left ++ c :: right, left.length + 1⟩ := by
  rw [line, List.append_assoc, List.length_append]
  rfl

lemma atEnd_line : (line ⟨left, right⟩).atEnd = right.isEmpty := by
  cases right <;> simp [line, Line.atEnd, Line.length]

lemma not_atEnd_line (left : Text) (c : Char) (rest : Text) : ¬ (line ⟨left, c :: rest⟩).atEnd := by
  rw [atEnd_line]
  exact Bool.false_ne_true

lemma insertChar?_line {c : Char} (accepted : Line.accepts c) (left right : Text) :
    (line ⟨left, right⟩).insertChar? c = some (line ⟨left ++ [c], right⟩) := by
  rw [Line.insertChar?, if_pos accepted, line, List.take_left, List.drop_left, line_concat]

lemma insertChar?_refused {c : Char} (refused : ¬ Line.accepts c) (l : Line) :
    l.insertChar? c = none := if_neg refused

/-- Characters that are inserted one after the other go to the left of the cursor. -/
lemma foldl_insertChar (text left right : Text) :
    text.foldl (fun l c => (l.insertChar? c).getD l) (line ⟨left, right⟩) =
      line ⟨left ++ text.filter Line.accepts, right⟩ := by
  induction text generalizing left with
  | nil => rw [List.foldl_nil, List.filter_nil, List.append_nil]
  | cons c rest ih =>
    rw [List.foldl_cons]
    by_cases accepted : Line.accepts c
    · rw [insertChar?_line accepted, Option.getD_some, ih, List.filter_cons_of_pos accepted,
        List.append_assoc]
      rfl
    · rw [insertChar?_refused accepted, Option.getD_none, ih, List.filter_cons_of_neg accepted]

lemma eraseIdx_line (left : Text) (c : Char) (rest : Text) :
    (left ++ c :: rest).eraseIdx left.length = left ++ rest := by
  rw [List.eraseIdx_append_of_length_le (Nat.le_refl _), Nat.sub_self]
  rfl

lemma deleteForward?_line (left : Text) (c : Char) (rest : Text) :
    (line ⟨left, c :: rest⟩).deleteForward? = some (line ⟨left, rest⟩) := by
  rw [Line.deleteForward?, if_neg (not_atEnd_line left c rest), line, eraseIdx_line]
  rfl

lemma deleteBackward?_line (left : Text) (c : Char) (right : Text) :
    (line ⟨left ++ [c], right⟩).deleteBackward? = some (line ⟨left, right⟩) := by
  rw [line_concat, Line.deleteBackward?, if_neg (Nat.succ_ne_zero _), Nat.add_sub_cancel,
    eraseIdx_line]
  rfl

lemma moveLeft?_line (left : Text) (c : Char) (right : Text) :
    (line ⟨left ++ [c], right⟩).moveLeft? = some (line ⟨left, c :: right⟩) := by
  rw [line_concat, Line.moveLeft?, if_neg (Nat.succ_ne_zero _), Nat.add_sub_cancel]
  rfl

lemma moveRight?_line (left : Text) (c : Char) (rest : Text) :
    (line ⟨left, c :: rest⟩).moveRight? = some (line ⟨left ++ [c], rest⟩) := by
  rw [Line.moveRight?, if_neg (not_atEnd_line left c rest), line_concat]
  rfl

/-! ### Operations -/

lemma tried_some {l : Line} {changed : Option Line} {h : Halves} (found : changed = some h.line) :
    l.tried changed = (some true, h.line) := by
  rw [found]
  rfl

/-- What an operation does to the line of two halves. -/
lemma operate_line (h : Halves) (operation : Line.Operation) :
    h.line.operate operation = ((h.operate operation).1, (h.operate operation).2.line) := by
  obtain ⟨left, right⟩ := h
  cases operation with
  | new => rfl
  | clear => rfl
  | ofText text =>
    rw [operate, line_full]
    rfl
  | setText text =>
    rw [operate, line_full]
    rfl
  | insertChar c =>
    rw [Line.operate, operate]
    split
    · rename_i accepted
      exact tried_some (insertChar?_line accepted left right)
    · rename_i refused
      rw [insertChar?_refused refused]
      rfl
  | insertText text =>
    rw [Line.operate, operate, Line.insertText?, foldl_insertChar]
    split
    · rename_i some
      rw [some]
      rfl
    · rename_i none
      have kept : text.filter Line.accepts = [] := by simpa using none
      rw [Bool.of_not_eq_true none, kept, List.append_nil]
      rfl
  | deleteBackward =>
    rcases left.eq_nil_or_concat with rfl | ⟨init, c, rfl⟩
    · rfl
    · rw [List.concat_eq_append, operate, if_neg (by simp), List.dropLast_concat]
      exact tried_some (deleteBackward?_line init c right)
  | deleteForward =>
    cases right with
    | nil =>
      rw [line_full]
      simp [Line.operate, Line.tried, operate, Line.deleteForward?, Line.atEnd, Line.length, line_full]
    | cons c rest => exact tried_some (deleteForward?_line left c rest)
  | moveLeft =>
    rcases left.eq_nil_or_concat with rfl | ⟨init, c, rfl⟩
    · rfl
    · rw [List.concat_eq_append, operate, List.getLast?_concat, List.dropLast_concat]
      exact tried_some (moveLeft?_line init c right)
  | moveRight =>
    cases right with
    | nil =>
      rw [line_full]
      simp [Line.operate, Line.tried, operate, Line.moveRight?, Line.atEnd, Line.length, line_full]
    | cons c rest => exact tried_some (moveRight?_line left c rest)
  | moveStart => rfl
  | moveEnd =>
    rw [operate, line_full]
    rfl

/-! ### At byte offsets -/

lemma insertCharAt?_line (c : Char) (left right : Text) :
    (line ⟨left, right⟩).insertCharAt? c =
      some (Line.accepts c,
        line ⟨left ++ [c].filter Line.accepts, right⟩) := by
  rw [Line.insertCharAt?]
  by_cases accepted : Line.accepts c
  · rw [if_pos accepted, List.filter_cons_of_pos accepted, List.filter_nil, accepted, line_concat]
    show (Text.insertAt? (Text.byteOffset left.length (left ++ right)) c (left ++ right)).bind _ = _
    rw [Text.insertAt?_append]
    rfl
  · rw [if_neg accepted, List.filter_cons_of_neg accepted, List.filter_nil, List.append_nil,
      Bool.of_not_eq_true accepted]

/-- Inserting a text at the offsets of its characters tells whether any of them was accepted. -/
lemma foldlM_insertMoreAt (text left right : Text) (inserted : Bool) :
    text.foldlM Line.insertMoreAt? (inserted, line ⟨left, right⟩) =
      some (inserted || text.any Line.accepts, line ⟨left ++ text.filter Line.accepts, right⟩) := by
  induction text generalizing left inserted with
  | nil =>
    rw [List.foldlM_nil, List.any_nil, Bool.or_false, List.filter_nil, List.append_nil]
    rfl
  | cons c rest ih =>
    have first : Line.insertMoreAt? (inserted, line ⟨left, right⟩) c =
        some (inserted || Line.accepts c, line ⟨left ++ [c].filter Line.accepts, right⟩) := by
      rw [Line.insertMoreAt?, insertCharAt?_line]
      rfl
    rw [List.foldlM_cons, first, Option.bind_eq_bind, Option.bind_some, ih, List.any_cons,
      Bool.or_assoc, List.append_assoc, ← List.filter_append]
    rfl

lemma deleteForwardAt?_line (left : Text) (c : Char) (rest : Text) :
    (line ⟨left, c :: rest⟩).deleteForwardAt? = some (true, line ⟨left, rest⟩) := by
  rw [Line.deleteForwardAt?, if_neg (not_atEnd_line left c rest)]
  show (Text.removeAt? (Text.byteOffset left.length (left ++ c :: rest)) (left ++ c :: rest)).bind _ = _
  rw [Text.removeAt?_append]
  rfl

lemma deleteBackwardAt?_line (left : Text) (c : Char) (right : Text) :
    (line ⟨left ++ [c], right⟩).deleteBackwardAt? = some (true, line ⟨left, right⟩) := by
  rw [line_concat, Line.deleteBackwardAt?, if_neg (Nat.succ_ne_zero _), Nat.add_sub_cancel]
  show (Text.removeAt? (Text.byteOffset left.length (left ++ c :: right)) (left ++ c :: right)).bind _ = _
  rw [Text.removeAt?_append]
  rfl

/-- An operation on the line of two halves meets boundaries only, and does what it does to lines. -/
lemma bytes_line (h : Halves) (operation : Line.Operation) :
    h.line.operateAt? operation = some (h.line.operate operation) := by
  rw [operate_line]
  obtain ⟨left, right⟩ := h
  cases operation with
  | insertChar c =>
    rw [Line.operateAt?, insertCharAt?_line, operate]
    by_cases accepted : Line.accepts c
    · rw [if_pos accepted, accepted, List.filter_cons_of_pos accepted]
      rfl
    · rw [if_neg accepted, List.filter_cons_of_neg accepted, Bool.of_not_eq_true accepted,
        List.filter_nil, List.append_nil]
      rfl
  | insertText text =>
    rw [Line.operateAt?, Line.insertTextAt?, foldlM_insertMoreAt, Bool.false_or]
    rfl
  | deleteBackward =>
    rcases left.eq_nil_or_concat with rfl | ⟨init, c, rfl⟩
    · rfl
    · rw [List.concat_eq_append, Line.operateAt?, deleteBackwardAt?_line, operate, if_neg (by simp),
        List.dropLast_concat]
      rfl
  | deleteForward =>
    cases right with
    | nil =>
      have full : (line ⟨left, []⟩).atEnd := atEnd_line
      rw [Line.operateAt?, Line.deleteForwardAt?, if_pos full]
      rfl
    | cons c rest =>
      rw [Line.operateAt?, deleteForwardAt?_line]
      rfl
  | _ => exact congrArg some (operate_line ⟨left, right⟩ _)

/-! ### Runs -/

lemma run_line (operations : List Line.Operation) (h : Halves) :
    let r := Line.Operation.run operate operations h
    Line.Operation.run Line.operate operations h.line = (r.1, r.2.line) ∧
      Line.Operation.run? Line.operateAt? operations h.line = some (r.1, r.2.line) := by
  induction operations generalizing h with
  | nil => exact ⟨rfl, rfl⟩
  | cons operation operations ih =>
    obtain ⟨lines, bytes⟩ := ih (h.operate operation).2
    constructor
    · rw [Line.Operation.run, operate_line]
      dsimp only
      rw [lines]
      rfl
    · rw [Line.Operation.run?, bytes_line, operate_line]
      show (Line.Operation.run? _ _ _).bind _ = _
      rw [bytes]
      rfl

end Halves

/-- Whatever is done with a line, it stays the line of two halves, which are edited in its place and return
the same: it has their text, its cursor stands between them, and no line break is in either. That is also
what comes out where the text is kept in UTF-8 and changed at byte offsets, which can be done just at
boundaries. -/
theorem Line.refines_halves (operations : List Line.Operation) :
    ∃ flags l h, Operation.run Halves.operate operations {} = (flags, h) ∧
      Operation.run Line.operate operations {} = (flags, l) ∧
      Operation.run? Line.operateAt? operations {} = some (flags, l) ∧
      l.text = h.left ++ h.right ∧ l.cursor = h.left.length ∧ l.cursor ≤ l.text.length ∧
      (∀ c ∈ l.text, c ≠ '\n' ∧ c ≠ '\r') ∧
      ∀ n c text, ((Text.insertAt? n c text).isSome ↔ Text.IsBoundary n text) ∧
        ((Text.removeAt? n text).isSome ↔ Text.IsBoundary n text ∧ n < text.byteLength) := by
  obtain ⟨lines, bytes⟩ := Halves.run_line operations {}
  have sound := sound_empty.run operations
  rw [show ({} : Line) = Halves.line {} from rfl, lines] at sound
  exact ⟨_, _, _, rfl, lines, bytes, rfl, rfl, sound.cursor_le, sound.single, fun n c text =>
    ⟨Text.insertAt?_isSome_iff, Text.removeAt?_isSome_iff⟩⟩

/-- Characters of one, two and four bytes: the one in the middle is removed at the offset of its two. -/
example :
    Line.Operation.run? Line.operateAt? [.ofText ['a', 'ö', '😀'], .moveLeft, .deleteBackward] {} =
      some ([none, some true, some true], ⟨['a', '😀'], 1⟩) := by decide

end FilterEditor
