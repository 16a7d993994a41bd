import FilterEditor.Proofs.Fields
import FilterEditor.Yaml.Node.Decode
import FilterEditor.Yaml.Node.Reader

/-!
# Written records read back

A record is written as one field a line. Its tokens are those of its fields between the start and the end of
one block mapping (`tokens?_record`), and the mapping that is read from them holds every field with its name
and its value (`read?_record`).
-/

namespace FilterEditor.Yaml

/-- A field as it is written: its name, the value and the scalar that the value stands for. -/
structure Field where
  name : Text
  value : Text
  style : Style
  text : Text
  named : Scanner.IsName name
  printable : ∀ c ∈ value, isPrintable c = true
  written : Written value style text

namespace Field

/-- The line, or the lines, of a field. -/
def lines (f : Field) : Text := writeField f.name f.value

/-- The tokens of a field. -/
def tokens (f : Field) : List Token := Scanner.fieldTokens f.name f.style f.text

/-- The node of a field's value. -/
def node (f : Field) : Node := .scalar none f.style f.text

/-- The nodes of a field. -/
def nodes (f : Field) : Node × Node := (.scalar none .plain f.name, f.node)

/-- The field of a text. -/
def ofText (name text : Text) (named : Scanner.IsName name := by decide) : Field where
  name
  value := writeText text
  style := (TextForm.of text).readAs
  text
  named
  printable := printable_writeText text
  written := written_writeText text

/-- The field of a truth value. -/
def ofBool (name : Text) (flag : Bool) (named : Scanner.IsName name := by decide) : Field where
  name
  value := writeBool flag
  style := .plain
  text := writeBool flag
  named
  printable := by cases flag <;> exact List.all_eq_true.mp (by decide)
  written := written_writeBool flag

end Field

variable {c : Char} {fuel : Nat} {fields : List Field}

/-! ## Tokens -/

lemma isPrintable_of_isLetter (letter : Scanner.isLetter c = true) : isPrintable c = true := by
  have between : 65 ≤ c.toNat ∧ c.toNat ≤ 122 := by
    have isAlpha : c.isAlpha = (c.isUpper || c.isLower) := rfl
    have isUpper : c.isUpper = decide ('A'.val ≤ c.val ∧ c.val ≤ 'Z'.val) := rfl
    have isLower : c.isLower = (decide ('a'.val ≤ c.val) && decide (c.val ≤ 'z'.val)) := rfl
    simp only [Scanner.isLetter, isAlpha, isUpper, isLower, Bool.or_eq_true, Bool.and_eq_true,
      decide_eq_true_eq, beq_iff_eq] at letter
    rcases letter with (⟨low, high⟩ | ⟨low, high⟩) | rfl
    · exact ⟨low, le_trans (show c.toNat ≤ 90 from high) (by decide)⟩
    · exact ⟨le_trans (by decide) (show 97 ≤ c.toNat from low), high⟩
    · decide
  simp only [isPrintable, Bool.or_eq_true, Bool.and_eq_true, decide_eq_true_eq, beq_iff_eq, bne_iff_ne]
  omega

lemma printable_closing (value : Text) : ∀ c ∈ closing value, isPrintable c = true := by
  rw [closing]
  split <;> exact List.all_eq_true.mp (by decide)

lemma Field.printable_lines (f : Field) : ∀ c ∈ f.lines, isPrintable c = true := by
  have name : ∀ c ∈ f.name, isPrintable c = true :=
    fun c mem => isPrintable_of_isLetter (f.named.letters c mem)
  show ∀ c ∈ f.name ++ ':' :: ' ' :: f.value ++ closing f.value, isPrintable c = true
  simp only [List.forall_mem_append, List.forall_mem_cons]
  exact ⟨⟨name, by decide, by decide, f.printable⟩, printable_closing f.value⟩

/-- A field takes more characters than steps of the scanner. -/
lemma length_le_lines (fields : List Field) : 3 * fields.length ≤ (fields.flatMap Field.lines).length := by
  induction fields with
  | nil => exact Nat.zero_le _
  | cons f fields ih =>
    have name := List.length_pos_iff.mpr f.named.nonempty
    simp only [List.flatMap_cons, Field.lines, writeField, List.length_append, List.length_cons]
    omega

/-- Fields begin with a letter. -/
lemma clear_lines (fields : List Field) :
    Clear (fun c => !Scanner.isLetter c) (fields.flatMap Field.lines) := by
  cases fields with
  | nil => exact clear_nil
  | cons f fields =>
    obtain ⟨c, rest, eq⟩ := List.exists_cons_of_ne_nil f.named.nonempty
    have letter := f.named.letters c (eq ▸ List.mem_cons_self)
    rw [List.flatMap_cons, Field.lines, writeField, eq]
    exact clear_cons_iff.mpr (by simpa using letter)

/-- From a line start on, the tokens of fields are added, and in the end the mapping is closed. -/
lemma tokens?_fields (fields : List Field) {p : Position} (column : p.column = 0) (tokens : List Token)
    (enough : 3 * fields.length < fuel) :
    Scanner.tokens? fuel (Scanner.atLine [0] (fields.flatMap Field.lines) p tokens) =
      some (tokens ++ fields.flatMap Field.tokens ++ [.blockEnd]) := by
  induction fields generalizing fuel p tokens with
  | nil =>
    obtain ⟨fuel, rfl⟩ : ∃ less, fuel = less + 1 := ⟨fuel - 1, by omega⟩
    have found := Scanner.approach?_line (.inr rfl) (clear_lines []) p tokens
    rw [Scanner.tokens?, found, List.flatMap_nil, List.flatMap_nil, List.append_nil]
    rfl
  | cons f fields ih =>
    rw [List.length_cons] at enough
    obtain ⟨fuel, rfl⟩ : ∃ less, fuel = less + 3 := ⟨fuel - 3, by omega⟩
    obtain ⟨p', column', step⟩ :=
      Scanner.tokens?_field f.named f.written (.inr rfl) (clear_lines fields) column tokens fuel
    rw [List.flatMap_cons, List.flatMap_cons, Field.lines, step, ih column' _ (by omega)]
    simp [Scanner.opening, Field.tokens]

/-- The tokens of a record are those of its fields in one block mapping. -/
lemma tokens?_record (fields : List Field) (nonempty : fields ≠ []) :
    tokens? (fields.flatMap Field.lines) =
      some (.blockMapping :: (fields.flatMap Field.tokens ++ [.blockEnd])) := by
  obtain ⟨f, more, rfl⟩ := List.exists_cons_of_ne_nil nonempty
  have permitted : ((f :: more).flatMap Field.lines).all isPermitted = true := by
    rw [List.all_eq_true]
    intro c mem
    obtain ⟨g, _, mem⟩ := List.mem_flatMap.mp mem
    exact isPermitted_of_isPrintable (g.printable_lines c mem)
  have long := length_le_lines (f :: more)
  rw [List.length_cons] at long
  obtain ⟨fuel, eq⟩ : ∃ less, ((f :: more).flatMap Field.lines).length + 1 = less + 3 :=
    ⟨((f :: more).flatMap Field.lines).length - 2, by omega⟩
  obtain ⟨p', column', step⟩ := Scanner.tokens?_field f.named f.written (.inl rfl) (clear_lines more)
    (p := {}) rfl [] fuel
  rw [tokens?, if_pos permitted, eq]
  show Scanner.tokens? (fuel + 3) (Scanner.atLine [] ((f :: more).flatMap Field.lines) {} []) = _
  rw [List.flatMap_cons, List.flatMap_cons, Field.lines, step, tokens?_fields more column' _ (by omega)]
  simp [Scanner.opening, Field.tokens]

/-! ## Nodes -/

variable (handles : List (Text × Text)) (style : Style) (text : Text) (rest : List Token)
  (anchors : Anchors)

lemma node?_scalar (fuel : Nat) (place : Place) :
    node? handles (fuel + 1) place (.scalar style text :: rest) anchors =
      some ⟨.scalar none style text, rest, anchors⟩ := by
  rw [node?]
  · rfl
  · exact nofun

lemma blockPart?_scalar (fuel : Nat) :
    blockPart? handles (fuel + 2) (.scalar style text :: rest) anchors =
      some ⟨.scalar none style text, rest, anchors⟩ := by
  rw [blockPart?]
  exact node?_scalar handles style text rest anchors fuel .field

/-- The nodes of a record are its names and its values. -/
lemma blockFields?_fields (fields : List Field) (enough : fields.length + 3 ≤ fuel) :
    blockFields? handles fuel (fields.flatMap Field.tokens ++ [.blockEnd]) anchors =
      some ⟨fields.map Field.nodes, [], anchors⟩ := by
  induction fields generalizing fuel with
  | nil =>
    obtain ⟨fuel, rfl⟩ : ∃ less, fuel = less + 1 := ⟨fuel - 1, by omega⟩
    rw [List.flatMap_nil, List.nil_append, blockFields?]
    · rfl
    · exact nofun
  | cons f fields ih =>
    rw [List.length_cons] at enough
    obtain ⟨fuel, rfl⟩ : ∃ less, fuel = less + 3 := ⟨fuel - 3, by omega⟩
    rw [List.flatMap_cons, Field.tokens, Scanner.fieldTokens]
    simp only [List.cons_append, List.nil_append]
    rw [blockFields?, blockPart?_scalar, Option.bind_eq_bind, Option.bind_some]
    dsimp only
    rw [blockPart?_scalar, Option.bind_eq_bind, Option.bind_some]
    dsimp only
    rw [ih (by omega)]
    rfl

lemma node?_mapping (fields : List Field) (enough : fields.length + 3 ≤ fuel) :
    node? handles (fuel + 1) .block (.blockMapping :: (fields.flatMap Field.tokens ++ [.blockEnd]))
        anchors =
      some ⟨.mapping (fields.map Field.nodes), [], anchors⟩ := by
  have inner := blockFields?_fields handles anchors fields enough
  rw [node?]
  · simp only [properties]
    rw [inner]
    rfl
  · exact nofun

lemma length_tokens (fields : List Field) : (fields.flatMap Field.tokens).length = 4 * fields.length := by
  induction fields with
  | nil => rfl
  | cons f fields ih =>
    rw [List.flatMap_cons, List.length_append, ih, List.length_cons, Nat.mul_succ, Nat.add_comm]
    rfl

/-- A written record is read as the mapping of its fields. -/
lemma read?_record (fields : List Field) (nonempty : fields ≠ []) :
    Document.read? (fields.flatMap Field.lines) = some ⟨.mapping (fields.map Field.nodes), {}⟩ := by
  have long := length_tokens fields
  rw [Document.read?, tokens?_record fields nonempty, Option.bind_some, Document.ofTokens?]
  · rw [node?_mapping]
    · rfl
    · simp only [List.length_cons, List.length_append]
      omega
  · exact nofun
  · exact nofun
  · exact nofun

/-! ## Fields -/

/-- A field under its name, as it is looked up. -/
def Field.entry (f : Field) : Text × Node := (f.name, f.node)

/-- The fields of a record by their names. -/
lemma fields?_record (d : Document) (fields : List Field) :
    d.fields? (.mapping (fields.map Field.nodes)) = some (fields.map Field.entry) := by
  show (fields.map Field.nodes).mapM _ = _
  induction fields with
  | nil => rfl
  | cons f fields ih =>
    rw [List.map_cons, List.mapM_cons, ih]
    rfl

lemma filter_of_not_mem {name : Text} (missing : name ∉ fields.map Field.name) :
    (fields.map Field.entry).filter (·.1 = name) = [] := by
  rw [List.filter_eq_nil_iff, List.forall_mem_map]
  intro f mem
  have other : f.entry.1 ≠ name := fun eq => missing (eq ▸ List.mem_map_of_mem mem)
  simpa using other

/-- In a record without repeated names every field is the only one of its name. -/
lemma filter_of_mem {f : Field} (distinct : (fields.map Field.name).Nodup) (mem : f ∈ fields) :
    (fields.map Field.entry).filter (·.1 = f.name) = [f.entry] := by
  induction fields with
  | nil => cases mem
  | cons g fields ih =>
    obtain ⟨fresh, others⟩ := List.nodup_cons.mp distinct
    rw [List.map_cons]
    rcases List.mem_cons.mp mem with rfl | behind
    · rw [List.filter_cons_of_pos (by simp [Field.entry]), filter_of_not_mem fresh]
    · have other : g.entry.1 ≠ f.name := by
        intro same
        have same : g.name = f.name := same
        exact fresh (same ▸ List.mem_map_of_mem behind)
      rw [List.filter_cons_of_neg (by simpa using other), ih others behind]

variable {α : Type}

/-- A field that is written is found, whatever stands for a missing one. -/
lemma fieldOr?_of_mem {f : Field} (distinct : (fields.map Field.name).Nodup) (mem : f ∈ fields)
    (read : Node → Option α) (default : α) :
    fieldOr? (fields.map Field.entry) f.name read default = read f.node := by
  rw [fieldOr?, optionalField?, filter_of_mem distinct mem]
  show ((read f.node).map some).map (·.getD default) = read f.node
  cases read f.node <;> rfl

lemma fieldOr?_of_not_mem {name : Text} (missing : name ∉ fields.map Field.name) (read : Node → Option α)
    (default : α) : fieldOr? (fields.map Field.entry) name read default = some default := by
  rw [fieldOr?, optionalField?, filter_of_not_mem missing]
  rfl

end FilterEditor.Yaml
