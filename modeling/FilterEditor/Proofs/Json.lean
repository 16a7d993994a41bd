import FilterEditor.Json.Printer
import FilterEditor.Json.Reader
import Mathlib.Data.List.DropRight

/-!
# Reading back what is written

A value is written on one line or over lines. `Spells` says which texts stand for a value: the layouts
differ in white space only, so both are spellings, and the reader gives the value of every spelling
(`read?_of_spells`).

The reader spends fuel on every value and on every comma, and each of them takes up a character at
least. Twice the length of a spelling is therefore enough for the value in it, whatever follows.
-/

namespace FilterEditor.Json

/-- White space of JSON and nothing else. -/
def Gap (white : Text) : Prop := skipBlanks white = []

/-- Values without numbers whose strings hold whole characters: terms and filters are written as such
values. -/
inductive Textual : Json → Prop
  | null : Textual null
  | bool (value : Bool) : Textual (bool value)
  | string (text : Text) : Textual (string (some text))
  | array {items : List Json} (textual : ∀ item ∈ items, Textual item) : Textual (array items)
  | object {fields : List (Str × Json)} (named : ∀ field ∈ fields, field.1.isSome)
      (textual : ∀ field ∈ fields, Textual field.2) : Textual (object fields)

/-- Texts under names make up such a value. -/
lemma textual_of_texts {fields : List (Str × Json)}
    (texts : ∀ field ∈ fields, ∃ name text, field = (some name, Json.string (some text))) :
    Textual (object fields) := by
  apply Textual.object
  · intro field mem
    obtain ⟨_, _, rfl⟩ := texts field mem
    rfl
  · intro field mem
    obtain ⟨_, text, rfl⟩ := texts field mem
    exact .string text

mutual

/-- The texts that stand for a value. -/
inductive Spells : Json → Text → Prop
  | null : Spells null "null"
  | true : Spells (bool true) "true"
  | false : Spells (bool false) "false"
  | string (text : Text) : Spells (string (some text)) (quote text)
  | noItems : Spells (array []) ['[', ']']
  | array {items : List Json} {text : Text} (spelled : SpellsItems items text) :
      Spells (array items) ('[' :: text)
  | noFields : Spells (object []) ['\x7b', '\x7d']
  | object {fields : List (Str × Json)} {text : Text} (spelled : SpellsFields fields text) :
      Spells (object fields) ('\x7b' :: text)
  | indented {value : Json} {white text : Text} (gap : Gap white) (spelled : Spells value text) :
      Spells value (white ++ text)

/-- The texts that stand for the values of an array, with its closing bracket. -/
inductive SpellsItems : List Json → Text → Prop
  | last {item : Json} {text white : Text} (spelled : Spells item text) (gap : Gap white) :
      SpellsItems [item] (text ++ white ++ [']'])
  | more {item : Json} {items : List Json} {text rest : Text} (spelled : Spells item text)
      (more : SpellsItems items rest) : SpellsItems (item :: items) (text ++ ',' :: rest)

/-- The texts that stand for the fields of an object, with its closing brace. -/
inductive SpellsFields : List (Str × Json) → Text → Prop
  | last {before text white : Text} {value : Json} (name : Text) (start : Gap before)
      (spelled : Spells value text) (gap : Gap white) :
      SpellsFields [(some name, value)] (before ++ quote name ++ ':' :: (text ++ white ++ ['\x7d']))
  | more {before text rest : Text} {value : Json} {fields : List (Str × Json)} (name : Text)
      (start : Gap before) (spelled : Spells value text) (more : SpellsFields fields rest) :
      SpellsFields ((some name, value) :: fields)
        (before ++ quote name ++ ':' :: (text ++ ',' :: rest))

end

variable {value : Json} {items : List Json} {fields : List (Str × Json)} {fuel : Nat}
  {name text white before rest tail : Text}

/-! ## White space -/

lemma skipBlanks_gap (gap : Gap white) (text : Text) :
    skipBlanks (white ++ text) = skipBlanks text := by
  have blank := List.dropWhile_eq_nil_iff.mp gap
  exact List.dropWhile_append_of_pos blank

lemma skipBlanks_skipBlanks (text : Text) : skipBlanks (skipBlanks text) = skipBlanks text :=
  List.dropWhile_idempotent _ _

lemma value?_skipBlanks (fuel : Nat) (text : Text) :
    value? fuel (skipBlanks text) = value? fuel text := by
  cases fuel with
  | zero => rfl
  | succ fuel => rw [value?, value?, skipBlanks_skipBlanks]

lemma items?_skipBlanks (fuel : Nat) (text : Text) :
    items? fuel (skipBlanks text) = items? fuel text := by
  cases fuel with
  | zero => rfl
  | succ fuel => rw [items?, items?, value?_skipBlanks]

lemma fields?_skipBlanks (fuel : Nat) (text : Text) :
    fields? fuel (skipBlanks text) = fields? fuel text := by
  cases fuel with
  | zero => rfl
  | succ fuel => rw [fields?, fields?, skipBlanks_skipBlanks]

/-! ## Strings -/

/-- A code point in front of what a string literal goes on with. -/
abbrev consUnit (unit : Nat) (read : List Nat × Text) : List Nat × Text := (unit :: read.1, read.2)

lemma stringUnits_short {e : Char} {unit : Nat} (short : shortEscape? e = some unit) (rest : Text) :
    stringUnits ('\\' :: e :: rest) = (stringUnits rest).map (consUnit unit) := by
  have other : e ≠ 'u' := by
    rintro rfl
    cases short
  rw [stringUnits, short]
  · cases stringUnits rest <;> rfl
  · exact fun _ _ _ _ _ eq => (other eq).elim

lemma stringUnits_control {a b c d : Char} {unit : Nat} (hex : Hex.number? [a, b, c, d] = some unit)
    (rest : Text) :
    stringUnits ('\\' :: 'u' :: a :: b :: c :: d :: rest) =
      (stringUnits rest).map (consUnit unit) := by
  rw [stringUnits, hex]
  cases stringUnits rest <;> rfl

lemma stringUnits_plain {c : Char} (quote : c ≠ '"') (backslash : c ≠ '\\')
    (graphic : 0x20 ≤ c.toNat) (rest : Text) :
    stringUnits (c :: rest) = (stringUnits rest).map (consUnit c.toNat) := by
  have plain : (decide (c.toNat < 0x20) || c == '\\') = false := by
    simp only [Bool.or_eq_false_iff, decide_eq_false_iff_not, not_lt, beq_eq_false_iff_ne]
    exact ⟨graphic, backslash⟩
  rw [stringUnits, if_neg (Bool.eq_false_iff.mp plain)]
  · cases stringUnits rest <;> rfl
  · exact quote
  · exact fun _ _ _ _ _ eq => (backslash eq).elim
  · exact fun _ _ eq => (backslash eq).elim

/-- The hexadecimal escape of a control character. -/
lemma number?_control : ∀ n < 0x20,
    Hex.number? ['0', '0', Nat.digitChar (n / 16), Nat.digitChar (n % 16)] = some n := by
  decide

/-- A character is read from what is written for it. -/
lemma stringUnits_escapeChar (c : Char) (rest : Text) :
    stringUnits (escapeChar c ++ rest) = (stringUnits rest).map (consUnit c.toNat) := by
  unfold escapeChar
  split_ifs with special line carriage tab back feed control
  · rcases special with rfl | rfl <;> exact stringUnits_short rfl rest
  · exact stringUnits_short (line ▸ rfl) rest
  · exact stringUnits_short (carriage ▸ rfl) rest
  · exact stringUnits_short (tab ▸ rfl) rest
  · exact stringUnits_short (back ▸ rfl) rest
  · exact stringUnits_short (feed ▸ rfl) rest
  · exact stringUnits_control (number?_control c.toNat control) rest
  · obtain ⟨quote, backslash⟩ := not_or.mp special
    exact stringUnits_plain quote backslash (not_lt.mp control) rest

/-- A character is no half of a surrogate pair. -/
lemma not_half (c : Char) : isHighHalf c.toNat = false ∧ isLowHalf c.toNat = false := by
  have valid : c.toNat < 0xD800 ∨ 0xDFFF < c.toNat ∧ c.toNat < 0x110000 := c.valid
  simp only [isHighHalf, isLowHalf, Bool.and_eq_false_iff, decide_eq_false_iff_not]
  omega

lemma joinHalves_toNat (text : Text) : joinHalves (text.map Char.toNat) = some text := by
  induction text with
  | nil => rfl
  | cons c text ih =>
    obtain ⟨high, low⟩ := not_half c
    cases text with
    | nil => simp [joinHalves, high, low]
    | cons d text =>
      simp only [List.map_cons] at ih ⊢
      simp [joinHalves, high, low, ih]

/-- A string literal is read back behind its opening quote. -/
lemma string?_flatMap (text rest : Text) :
    string? (text.flatMap escapeChar ++ ['"'] ++ rest) = some (some text, rest) := by
  rw [List.append_assoc, List.singleton_append]
  have units : stringUnits (text.flatMap escapeChar ++ '"' :: rest) =
      some (text.map Char.toNat, rest) := by
    induction text with
    | nil => rfl
    | cons c text ih =>
      rw [List.flatMap_cons, List.append_assoc, stringUnits_escapeChar, ih]
      rfl
  rw [string?, units]
  simp only [Option.map_some, joinHalves_toNat]

/-! ## Steps of the reader -/

lemma value?_quote (text rest : Text) :
    value? (fuel + 1) (quote text ++ rest) = some (string (some text), rest) := by
  have quoted : quote text ++ rest = '"' :: (text.flatMap escapeChar ++ ['"'] ++ rest) := rfl
  have literal := string?_flatMap text rest
  rw [quoted, value?]
  show (string? (text.flatMap escapeChar ++ ['"'] ++ rest)).map _ = _
  rw [literal]
  rfl

/-- Behind an opening bracket that is not closed at once stand items. -/
lemma value?_array (unclosed : (skipBlanks text).head? ≠ some ']') :
    value? (fuel + 1) ('[' :: text) =
      (items? fuel text).map fun (items, rest) => (array items, rest) := by
  rw [← items?_skipBlanks]
  have opened : skipBlanks ('[' :: text) = '[' :: text := rfl
  simp only [value?, opened]
  split
  · rename_i closed
    rw [closed] at unclosed
    exact (unclosed rfl).elim
  · rfl

lemma value?_object (unclosed : (skipBlanks text).head? ≠ some '\x7d') :
    value? (fuel + 1) ('\x7b' :: text) =
      (fields? fuel text).map fun (fields, rest) => (object fields, rest) := by
  rw [← fields?_skipBlanks]
  have opened : skipBlanks ('\x7b' :: text) = '\x7b' :: text := rfl
  simp only [value?, opened]
  split
  · rename_i closed
    rw [closed] at unclosed
    exact (unclosed rfl).elim
  · rfl

lemma items?_last (gap : Gap white) (read : value? fuel text = some (value, white ++ ']' :: rest)) :
    items? (fuel + 1) text = some ([value], rest) := by
  have closed : skipBlanks (white ++ ']' :: rest) = ']' :: rest := skipBlanks_gap gap _
  simp only [items?, read, closed, bind, Option.bind]

lemma items?_more (read : value? fuel text = some (value, ',' :: rest))
    (more : items? fuel rest = some (items, tail)) :
    items? (fuel + 1) text = some (value :: items, tail) := by
  have comma : skipBlanks (',' :: rest) = ',' :: rest := rfl
  simp only [items?, read, comma, more, bind, Option.bind]

lemma skipBlanks_named (gap : Gap before) (name text : Text) :
    skipBlanks (before ++ (quote name ++ ':' :: text)) =
      '"' :: (name.flatMap escapeChar ++ ['"'] ++ ':' :: text) := by
  rw [skipBlanks_gap gap]
  rfl

lemma fields?_last (start : Gap before) (gap : Gap white) (name : Text)
    (read : value? fuel text = some (value, white ++ '\x7d' :: rest)) :
    fields? (fuel + 1) (before ++ (quote name ++ ':' :: text)) = some ([(some name, value)], rest) := by
  have colon : skipBlanks (':' :: text) = ':' :: text := rfl
  have closed : skipBlanks (white ++ '\x7d' :: rest) = '\x7d' :: rest := skipBlanks_gap gap _
  simp only [fields?, skipBlanks_named start, string?_flatMap, colon, read, closed, bind, Option.bind]

lemma fields?_more (start : Gap before) (name : Text)
    (read : value? fuel text = some (value, ',' :: rest))
    (more : fields? fuel rest = some (fields, tail)) :
    fields? (fuel + 1) (before ++ (quote name ++ ':' :: text)) =
      some ((some name, value) :: fields, tail) := by
  have colon : skipBlanks (':' :: text) = ':' :: text := rfl
  have comma : skipBlanks (',' :: rest) = ',' :: rest := rfl
  simp only [fields?, skipBlanks_named start, string?_flatMap, colon, read, comma, more, bind,
    Option.bind]

/-! ## Spellings are read -/

/-- No spelling starts like the end of an array. -/
lemma Spells.not_closing {value : Json} {text : Text} (rest : Text) :
    Spells value text → (skipBlanks (text ++ rest)).head? ≠ some ']'
  | .null => nofun
  | .true => nofun
  | .false => nofun
  | .string _ => nofun
  | .noItems => nofun
  | .array _ => nofun
  | .noFields => nofun
  | .object _ => nofun
  | .indented gap spelled => by
    rw [List.append_assoc, skipBlanks_gap gap]
    exact spelled.not_closing rest

lemma SpellsItems.not_closing (rest : Text) (h : SpellsItems items text) :
    (skipBlanks (text ++ rest)).head? ≠ some ']' := by
  cases h with
  | last spelled =>
    rw [List.append_assoc, List.append_assoc]
    exact spelled.not_closing _
  | more spelled =>
    rw [List.append_assoc]
    exact spelled.not_closing _

lemma SpellsFields.not_closing (rest : Text) (h : SpellsFields fields text) :
    (skipBlanks (text ++ rest)).head? ≠ some '\x7d' := by
  cases h with
  | last name start =>
    simp only [List.append_assoc, List.cons_append]
    rw [skipBlanks_named start]
    nofun
  | more name start =>
    simp only [List.append_assoc, List.cons_append]
    rw [skipBlanks_named start]
    nofun

lemma Spells.nonempty {value : Json} {text : Text} : Spells value text → 0 < text.length
  | .null => by decide
  | .true => by decide
  | .false => by decide
  | .string _ => Nat.succ_pos _
  | .noItems => Nat.succ_pos _
  | .array _ => Nat.succ_pos _
  | .noFields => Nat.succ_pos _
  | .object _ => Nat.succ_pos _
  | .indented _ spelled => by
    rw [List.length_append]
    exact Nat.add_pos_right _ spelled.nonempty

mutual

/-- Fuel for twice the length of a spelling is enough to read its value, whatever follows. The proof goes
along the spelling: brackets and commas pay for the steps from a value to its parts. -/
lemma Spells.read {value : Json} {text : Text} (rest : Text) : Spells value text → ∀ fuel,
    2 * text.length ≤ fuel → value? fuel (text ++ rest) = some (value, rest)
  | spelled, 0, enough => by
    have nonempty := spelled.nonempty
    omega
  | .null, _ + 1, _ => rfl
  | .true, _ + 1, _ => rfl
  | .false, _ + 1, _ => rfl
  | .string text, _ + 1, _ => value?_quote text rest
  | .noItems, _ + 1, _ => rfl
  | .array spelled, fuel + 1, enough => by
    rw [List.length_cons] at enough
    have read := spelled.read rest fuel (by omega)
    rw [List.cons_append, value?_array (spelled.not_closing rest), read]
    rfl
  | .noFields, _ + 1, _ => rfl
  | .object spelled, fuel + 1, enough => by
    rw [List.length_cons] at enough
    have read := spelled.read rest fuel (by omega)
    rw [List.cons_append, value?_object (spelled.not_closing rest), read]
    rfl
  | .indented gap spelled, fuel + 1, enough => by
    rw [List.length_append] at enough
    have read := spelled.read rest (fuel + 1) (by omega)
    rw [List.append_assoc, ← value?_skipBlanks, skipBlanks_gap gap, value?_skipBlanks, read]

lemma SpellsItems.read {items : List Json} {text : Text} (rest : Text) : SpellsItems items text →
    ∀ fuel, 2 * text.length + 1 ≤ fuel → items? fuel (text ++ rest) = some (items, rest)
  | .last spelled gap, fuel + 1, enough => by
    simp only [List.length_append] at enough
    rw [List.append_assoc, List.append_assoc]
    refine items?_last gap (spelled.read _ fuel ?_)
    omega
  | .more spelled more, fuel + 1, enough => by
    simp only [List.length_append, List.length_cons] at enough
    rw [List.append_assoc]
    refine items?_more (spelled.read _ fuel ?_) (more.read rest fuel ?_) <;> omega

lemma SpellsFields.read {fields : List (Str × Json)} {text : Text} (rest : Text) :
    SpellsFields fields text → ∀ fuel, 2 * text.length + 1 ≤ fuel →
      fields? fuel (text ++ rest) = some (fields, rest)
  | .last name start spelled gap, fuel + 1, enough => by
    simp only [List.length_append, List.length_cons] at enough
    simp only [List.append_assoc, List.cons_append]
    refine fields?_last start gap _ (spelled.read _ fuel ?_)
    omega
  | .more name start spelled more, fuel + 1, enough => by
    simp only [List.length_append, List.length_cons] at enough
    simp only [List.append_assoc, List.cons_append]
    refine fields?_more start _ (spelled.read _ fuel ?_) (more.read rest fuel ?_) <;> omega

end

/-- The reader gives the value of every spelling. -/
theorem read?_of_spells (h : Spells value text) : read? text = some value := by
  have read := h.read [] (2 * text.length + 2) (by omega)
  rw [List.append_nil] at read
  rw [read?, read]
  rfl

/-! ## What is written is a spelling -/

lemma gap_nil : Gap [] := rfl

lemma gap_space : Gap [' '] := rfl

lemma gap_newLine (level : Nat) : Gap (newLine level) := by
  apply List.dropWhile_eq_nil_iff.mpr
  intro c mem
  rcases List.mem_cons.mp mem with rfl | mem
  · rfl
  · obtain rfl := List.eq_of_mem_replicate mem
    rfl

lemma renderItems_eq (items : List Json) : renderItems items = items.map render := by
  induction items with
  | nil => rfl
  | cons item items ih => rw [renderItems, ih, List.map_cons]

lemma renderFields_eq (fields : List (Str × Json)) :
    renderFields fields = fields.map fun f => quote (f.1.getD []) ++ ':' :: render f.2 := by
  induction fields with
  | nil => rfl
  | cons field fields ih => rw [renderFields, ih, List.map_cons]

lemma prettyItems_eq (level : Nat) (items : List Json) :
    prettyItems level items = items.map (prettyAt level) := by
  induction items with
  | nil => rfl
  | cons item items ih => rw [prettyItems, ih, List.map_cons]

lemma prettyFields_eq (level : Nat) (fields : List (Str × Json)) :
    prettyFields level fields =
      fields.map fun f => quote (f.1.getD []) ++ ':' :: ' ' :: prettyAt level f.2 := by
  induction fields with
  | nil => rfl
  | cons field fields ih => rw [prettyFields, ih, List.map_cons]

lemma block_of_ne_nil {parts : List Text} (nonempty : parts ≠ []) (level : Nat)
    (opening closing : Char) :
    block level opening closing parts =
      opening :: (newLine (level + 1) ++ Text.join (',' :: newLine (level + 1)) parts ++
        newLine level ++ [closing]) := by
  rw [block, if_neg (by simpa using nonempty)]
  rfl

/-- Spellings with commas and white space between them spell the items of an array. -/
lemma spellsItems_join (write : Json → Text) (nonempty : items ≠ []) (gap : Gap before)
    (last : Gap white) (spelled : ∀ item ∈ items, Spells item (write item)) :
    SpellsItems items
      (before ++ Text.join (',' :: before) (items.map write) ++ white ++ [']']) := by
  induction items with
  | nil => exact (nonempty rfl).elim
  | cons item rest ih =>
    have first : Spells item (before ++ write item) :=
      .indented gap (spelled item List.mem_cons_self)
    cases rest with
    | nil =>
      simp only [Text.join, List.map_cons, List.map_nil, List.intercalate_singleton]
      exact .last first last
    | cons second rest =>
      have later := ih (List.cons_ne_nil _ _) fun item mem =>
        spelled item (List.mem_cons_of_mem _ mem)
      have more := SpellsItems.more first later
      simp only [Text.join, List.map_cons, List.intercalate_cons_cons, List.append_assoc,
        List.cons_append] at more ⊢
      exact more

lemma spellsFields_join (write : Json → Text) (nonempty : fields ≠ []) (gap : Gap before)
    (last : Gap white) (named : ∀ field ∈ fields, field.1.isSome)
    (spelled : ∀ field ∈ fields, Spells field.2 (write field.2)) :
    SpellsFields fields
      (before ++ Text.join (',' :: before)
          (fields.map fun field => quote (field.1.getD []) ++ ':' :: write field.2) ++
        white ++ ['\x7d']) := by
  induction fields with
  | nil => exact (nonempty rfl).elim
  | cons field rest ih =>
    obtain ⟨name, value⟩ := field
    obtain ⟨name, rfl⟩ := Option.isSome_iff_exists.mp (named _ List.mem_cons_self)
    have first : Spells value (write value) := spelled _ List.mem_cons_self
    cases rest with
    | nil =>
      have only := SpellsFields.last name gap first last
      simp only [Text.join, List.map_cons, List.map_nil, List.intercalate_singleton, Option.getD_some,
        List.append_assoc, List.cons_append] at only ⊢
      exact only
    | cons second rest =>
      have later := ih (List.cons_ne_nil _ _)
        (fun field mem => named field (List.mem_cons_of_mem _ mem))
        (fun field mem => spelled field (List.mem_cons_of_mem _ mem))
      have more := SpellsFields.more name gap first later
      simp only [Text.join, List.map_cons, List.intercalate_cons_cons, Option.getD_some,
        List.append_assoc, List.cons_append] at more ⊢
      exact more

/-- The layout on one line. -/
theorem spells_render (h : Textual value) : Spells value value.render := by
  induction h with
  | null => exact .null
  | bool value =>
    cases value with
    | true => exact .true
    | false => exact .false
  | string text => exact .string text
  | @array items _ ih =>
    rcases eq_or_ne items [] with rfl | nonempty
    · exact .noItems
    · have spelled := spellsItems_join render nonempty gap_nil gap_nil ih
      rw [← renderItems_eq, List.nil_append, List.append_nil] at spelled
      exact .array spelled
  | @object fields named _ ih =>
    rcases eq_or_ne fields [] with rfl | nonempty
    · exact .noFields
    · have spelled := spellsFields_join render nonempty gap_nil gap_nil named ih
      rw [← renderFields_eq, List.nil_append, List.append_nil] at spelled
      exact .object spelled

/-- The layout over lines. -/
theorem spells_pretty (h : Textual value) : Spells value value.pretty := by
  suffices all : ∀ level, Spells value (prettyAt level value) from all 0
  induction h with
  | null => exact fun _ => .null
  | bool value =>
    cases value with
    | true => exact fun _ => .true
    | false => exact fun _ => .false
  | string text => exact fun _ => .string text
  | @array items _ ih =>
    intro level
    rcases eq_or_ne items [] with rfl | nonempty
    · exact .noItems
    · have spelled := spellsItems_join (prettyAt (level + 1)) nonempty (gap_newLine (level + 1))
        (gap_newLine level) fun item mem => ih item mem (level + 1)
      rw [prettyAt, prettyItems_eq, block_of_ne_nil (List.map_eq_nil_iff.not.mpr nonempty)]
      exact .array spelled
  | @object fields named _ ih =>
    intro level
    rcases eq_or_ne fields [] with rfl | nonempty
    · exact .noFields
    · have spelled := spellsFields_join (fun value => ' ' :: prettyAt (level + 1) value) nonempty
        (gap_newLine (level + 1)) (gap_newLine level) named
        fun field mem => .indented gap_space (ih field mem (level + 1))
      rw [prettyAt, prettyFields_eq, block_of_ne_nil (List.map_eq_nil_iff.not.mpr nonempty)]
      exact .object spelled

end FilterEditor.Json
