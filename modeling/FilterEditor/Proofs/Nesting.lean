import FilterEditor.Proofs.Json
import FilterEditor.Tree.Json

/-!
# Filters as JSON text

Nothing in the JSON of a filter says whether a value is a chain or a condition, or whether an operand is a
flag or a text: the reader tells by the shape of the values. A condition has no operator, so it is never
taken for a chain, and what is written for a filter is decoded as that filter (`decode?_toJson`). The
only limit is on nesting. Every chain is an object with an array in it, so the depth of the JSON is twice
the nesting of the chains, and one more for a condition: a filter is read back just if no more than 63
chains are nested in it (`read?_written`).
-/

namespace FilterEditor

namespace Json

variable {value : Json}

lemma allSound_iff {items : List Json} : allSound items ↔ ∀ item ∈ items, item.isSound := by
  induction items with
  | nil => exact iff_of_true rfl nofun
  | cons item items ih => rw [allSound, Bool.and_eq_true, ih, List.forall_mem_cons]

lemma fieldsSound_iff {fields : List (Str × Json)} :
    fieldsSound fields ↔ ∀ field ∈ fields, field.1.isSome ∧ field.2.isSound := by
  induction fields with
  | nil => exact iff_of_true rfl nofun
  | cons field fields ih =>
    rw [fieldsSound, Bool.and_eq_true, Bool.and_eq_true, ih, List.forall_mem_cons]

/-- Values without numbers and with whole strings are sound. -/
lemma Textual.isSound (h : Textual value) : value.isSound := by
  induction h with
  | null => rfl
  | bool _ => rfl
  | string _ => rfl
  | array _ ih =>
    rw [Json.isSound, allSound_iff]
    exact ih
  | object named _ ih =>
    rw [Json.isSound, fieldsSound_iff]
    exact fun field mem => ⟨named field mem, ih field mem⟩

end Json

lemma Operand.textual_toJson (value : Operand) : value.toJson.Textual := by
  cases value with
  | flag value => exact .bool value
  | text value => exact .string value

namespace Condition

lemma textual_toJson (c : Condition) : c.toJson.Textual := by
  obtain ⟨column, sign, value, label⟩ := c
  have operand := value.textual_toJson
  cases label <;> refine .object ?_ ?_ <;> simp [operand, Json.Textual.string]

/-- A label is written only where a condition has one, and lacking where it is not written. -/
lemma ofJson?_toJson (c : Condition) : ofJson? c.toJson = some c := by
  obtain ⟨column, sign, value, label⟩ := c
  cases value <;> cases label <;> rfl

lemma depth_toJson (c : Condition) : c.toJson.depth = 1 := by
  obtain ⟨column, sign, value, label⟩ := c
  cases value <;> cases label <;> rfl

end Condition

namespace Tree

mutual

/-- How many chains are nested at most. -/
def nesting : Tree → Nat
  | .chain _ children => maxNesting children + 1
  | .condition _ => 0

/-- The largest nesting of the filters. -/
def maxNesting : List Tree → Nat
  | [] => 0
  | child :: children => max child.nesting (maxNesting children)

end

mutual

lemma textual_toJson : ∀ tree : Tree, tree.toJson.Textual
  | .chain connective children => by
    have items : (Json.array (listToJson children)).Textual := .array (textual_listToJson children)
    rw [toJson]
    refine .object ?_ ?_ <;> simp [items, Json.Textual.string]
  | .condition c => by
    rw [toJson]
    exact c.textual_toJson

lemma textual_listToJson : ∀ children : List Tree, ∀ item ∈ listToJson children, item.Textual
  | [] => nofun
  | child :: children => by
    rw [listToJson, List.forall_mem_cons]
    exact ⟨textual_toJson child, textual_listToJson children⟩

end

/-- A chain is an object around an array. -/
lemma depth_chain (connective : Connective) (children : List Tree) :
    (chain connective children).toJson.depth = Json.maxDepth (listToJson children) + 2 := by
  rw [toJson]
  simp [Json.depth, Json.fieldsDepth]

mutual

/-- Every chain takes two levels, and a condition one. -/
lemma depth_toJson : ∀ tree : Tree,
    2 * tree.nesting ≤ tree.toJson.depth ∧ tree.toJson.depth ≤ 2 * tree.nesting + 1
  | .chain connective children => by
    have inner := maxDepth_listToJson children
    rw [depth_chain, nesting]
    omega
  | .condition c => by
    rw [toJson, c.depth_toJson, nesting]
    omega

lemma maxDepth_listToJson : ∀ children : List Tree,
    2 * maxNesting children ≤ Json.maxDepth (listToJson children) ∧
      Json.maxDepth (listToJson children) ≤ 2 * maxNesting children + 1
  | [] => ⟨Nat.zero_le _, Nat.zero_le _⟩
  | child :: children => by
    have first := depth_toJson child
    have rest := maxDepth_listToJson children
    rw [listToJson, Json.maxDepth, maxNesting]
    omega

end

/-! ## Decoding -/

lemma chainParts?_chain (connective : Connective) (children : List Tree) :
    chainParts? (chain connective children).toJson = some (connective, listToJson children) := by
  cases connective <;> rfl

/-- A condition is not taken for a chain. -/
lemma chainParts?_condition (c : Condition) : chainParts? c.toJson = none := by
  obtain ⟨column, sign, value, label⟩ := c
  cases label <;> rfl

mutual

/-- Fuel for the nesting is enough. -/
lemma decode?_toJson : ∀ (tree : Tree) (fuel : Nat), tree.nesting < fuel →
    decode? fuel tree.toJson = some tree
  | .chain connective children, fuel + 1, enough => by
    rw [nesting] at enough
    have inner := mapM_decode? children fuel (by omega)
    rw [decode?, chainParts?_chain]
    simp [inner, bind, Option.bind]
  | .condition c, fuel + 1, enough => by
    rw [toJson, decode?, chainParts?_condition, c.ofJson?_toJson]
    rfl

lemma mapM_decode? : ∀ (children : List Tree) (fuel : Nat), maxNesting children < fuel →
    (listToJson children).mapM (decode? fuel) = some children
  | [], _, _ => rfl
  | child :: children, fuel, enough => by
    rw [maxNesting] at enough
    rw [listToJson, List.mapM_cons, decode?_toJson child fuel (by omega),
      mapM_decode? children fuel (by omega)]
    rfl

end

/-- Empty chains, and a text that looks like a flag. -/
example :
    let tree := chain .any [chain .all [], condition ⟨['a'], ['='], .text "true", some []⟩,
      condition ⟨[], ['!', '='], .flag true, none⟩]
    decode? 3 tree.toJson = some tree := by
  rfl

/-- The value that is written for a filter describes it unless the chains are nested too deep. -/
lemma ofJson?_toJson (tree : Tree) :
    ofJson? tree.toJson = if tree.nesting ≤ 63 then some tree else none := by
  have sound := tree.textual_toJson.isSound
  obtain ⟨low, high⟩ := tree.depth_toJson
  by_cases shallow : tree.nesting ≤ 63
  · have fits : tree.toJson.depth ≤ nestingLimit := by
      rw [nestingLimit]
      omega
    rw [if_pos shallow, ofJson?, if_pos (by simp [sound, fits])]
    refine decode?_toJson tree _ ?_
    rw [nestingLimit]
    omega
  · have deep : ¬ tree.toJson.depth ≤ nestingLimit := by
      rw [nestingLimit]
      omega
    rw [if_neg shallow, ofJson?, if_neg (by simp [deep])]

/-- The same for every text that stands for that value. -/
lemma read?_of_spells {tree : Tree} {text : Text} (spelled : tree.toJson.Spells text) :
    read? text = if tree.nesting ≤ 63 then some tree else none := by
  rw [read?, Json.read?_of_spells spelled]
  exact tree.ofJson?_toJson

/-- A filter is read from what is written for it, on one line or over lines, if no more than 63 chains are
nested in it; a filter with more is refused. -/
theorem read?_written (tree : Tree) :
    read? tree.toJson.render = (if tree.nesting ≤ 63 then some tree else none) ∧
      read? tree.toJson.pretty = if tree.nesting ≤ 63 then some tree else none :=
  ⟨read?_of_spells (Json.spells_render tree.textual_toJson),
    read?_of_spells (Json.spells_pretty tree.textual_toJson)⟩

end Tree
end FilterEditor
