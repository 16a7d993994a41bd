import FilterEditor.Keymap.Keystroke
import FilterEditor.Proofs.Casing
import FilterEditor.Proofs.Splitting
import Mathlib.Data.List.Basic

/-!
# Written keystrokes

The mark between the names of a keystroke is a key itself, so a keystroke is cut at its last mark, and a
mark that nothing follows is the key. No name of a modifier holds the mark. What is written for a
keystroke is therefore cut where it was put together (`splitKey?_written`), and if the reader's lowering
leaves the key as it is, the keystroke is read back. Every key that the reader gives is like that, since
it has been lowered.
-/

namespace FilterEditor

/-- A key that lowering a text leaves as it is: a named key or a character that is its own lower case. -/
def Key.Lowered : Key → Prop
  | .char c => Casing.Lowered c
  | .named _ => True

namespace Keystroke

/-- A word of small letters. -/
def IsWord (name : Text) : Prop := name ≠ [] ∧ name.all Char.isLower

instance : DecidablePred IsWord := fun name =>
  inferInstanceAs (Decidable (name ≠ [] ∧ name.all Char.isLower))

/-- The names of modifiers in what stands before a key. -/
def namesIn (before : Text) : List Text := (List.splitOn '+' before).filter (!·.isEmpty)

variable {mark c : Char} {text before after name : Text} {names : List Text} {key : Key}
  {m : Modifiers} {k : Keystroke}

/-! ## Cutting off the key -/

lemma splitLast?_of_not_mem (absent : mark ∉ text) : splitLast? mark text = none := by
  induction text with
  | nil => rfl
  | cons c rest ih =>
    obtain ⟨other, more⟩ := not_or.mp (List.mem_cons.not.mp absent)
    rw [splitLast?, ih more]
    exact if_neg (Ne.symm other)

lemma splitLast?_append (last : mark ∉ after) :
    splitLast? mark (before ++ mark :: after) = some (before, after) := by
  induction before with
  | nil =>
    rw [List.nil_append, splitLast?, splitLast?_of_not_mem last]
    exact if_pos rfl
  | cons c before ih => rw [List.cons_append, splitLast?, ih]

lemma eq_of_splitLast? (split : splitLast? mark text = some (before, after)) :
    text = before ++ mark :: after := by
  induction text generalizing before with
  | nil => cases split
  | cons c rest ih =>
    rw [splitLast?] at split
    cases later : splitLast? mark rest with
    | some parts =>
      obtain ⟨before', after'⟩ := parts
      rw [later] at split
      cases split
      rw [ih later]
      rfl
    | none =>
      rw [later] at split
      dsimp only at split
      split_ifs at split with here
      cases split
      rw [here]
      rfl

/-- What stands for a key is taken from the text. -/
lemma mem_of_splitKey? (split : splitKey? text = some (before, name)) (mem : c ∈ name) : c ∈ text := by
  unfold splitKey? at split
  split at split
  · cases split
    exact mem
  · rename_i cut
    cases split
    obtain rfl := List.mem_singleton.mp mem
    rw [eq_of_splitLast? cut]
    exact List.mem_append_right _ List.mem_cons_self
  · rename_i cut
    split_ifs at split
    cases split
    obtain rfl := List.mem_singleton.mp mem
    rw [eq_of_splitLast? cut]
    exact List.mem_append_right _ List.mem_cons_self
  · rename_i cut
    cases split
    rw [eq_of_splitLast? cut]
    exact List.mem_append_right _ (List.mem_cons_of_mem _ mem)

/-- A name that stands for a key behind a mark: the mark itself or a text without it. -/
def Final (name : Text) : Prop := name = ['+'] ∨ name ≠ [] ∧ '+' ∉ name

lemma splitKey?_of_no_names (final : Final name) : splitKey? name = some ([], name) := by
  rcases final with rfl | ⟨nonempty, free⟩
  · rfl
  · rw [splitKey?, splitLast?_of_not_mem free]

lemma splitKey?_behind (final : Final name) :
    splitKey? (before ++ '+' :: name) = some (before, name) := by
  rcases final with rfl | ⟨nonempty, free⟩
  · have cut : splitLast? '+' ((before ++ ['+']) ++ ['+']) = some (before ++ ['+'], []) :=
      splitLast?_append nofun
    obtain ⟨first, rest, marked⟩ := List.exists_cons_of_ne_nil (List.concat_ne_nil '+' before)
    have last : splitKey? ((before ++ ['+']) ++ ['+']) =
        if (first :: rest).getLast? = some '+' then some ((first :: rest).dropLast, ['+'])
        else none := by
      rw [splitKey?, cut, marked]
    rw [← marked, List.getLast?_concat, if_pos rfl, List.dropLast_concat, List.append_assoc] at last
    exact last
  · have cut : splitLast? '+' (before ++ '+' :: name) = some (before, name) := splitLast?_append free
    obtain ⟨c, rest, rfl⟩ := List.exists_cons_of_ne_nil nonempty
    rw [splitKey?, cut]
    cases before <;> rfl

lemma flatMap_mark (nonempty : names ≠ []) :
    names.flatMap (· ++ ['+']) = Text.join ['+'] names ++ ['+'] := by
  induction names with
  | nil => exact (nonempty rfl).elim
  | cons name names ih =>
    cases names with
    | nil => simp [Text.join]
    | cons next rest =>
      rw [List.flatMap_cons, ih (List.cons_ne_nil _ _), Text.join, Text.join,
        List.intercalate_cons_cons]
      simp only [List.append_assoc]

/-- The names of modifiers are words of small letters. -/
lemma isWord_of_mem_names (mem : name ∈ m.names) : IsWord name := by
  have all : ∀ name ∈ ["ctrl".toList, "alt".toList, "shift".toList, "meta".toList], IsWord name := by
    decide
  apply all
  simp only [Modifiers.names, List.mem_append, List.mem_ite_nil_right, List.mem_singleton] at mem
  simp only [List.mem_cons, List.not_mem_nil, or_false]
  tauto

/-- So are the names of keys. -/
lemma isWord_name (key : NamedKey) : IsWord key.name := by
  cases key <;> decide

lemma IsWord.not_mem (word : IsWord name) (other : mark.isLower = false) : mark ∉ name := by
  intro mem
  cases other.symm.trans (List.all_eq_true.mp word.2 mark mem)

lemma IsWord.lowered (word : IsWord name) (mem : c ∈ name) : Casing.Lowered c :=
  Casing.lowered_of_isLower (List.all_eq_true.mp word.2 c mem)

/-- A key behind the names of modifiers, each of them with its mark, is cut off where it begins. -/
lemma splitKey?_written (final : Final name) :
    splitKey? (names.flatMap (· ++ ['+']) ++ name) = some (Text.join ['+'] names, name) := by
  rcases eq_or_ne names [] with rfl | nonempty
  · exact splitKey?_of_no_names final
  · rw [flatMap_mark nonempty, List.append_assoc]
    exact splitKey?_behind final

/-- Names that are joined by marks are found again. -/
lemma namesIn_join (plain : ∀ name ∈ names, name ≠ [] ∧ '+' ∉ name) :
    namesIn (Text.join ['+'] names) = names := by
  apply Text.filter_splitOn_join rfl
  intro name mem
  obtain ⟨nonempty, unmarked⟩ := plain name mem
  exact ⟨by simpa using nonempty, unmarked⟩

/-! ## What a keystroke consists of -/

lemma readModifiers_names (text : Text) (m : Modifiers) : readModifiers text m.names = .ok m := by
  obtain ⟨ctrl, alt, shift, super⟩ := m
  cases ctrl <;> cases alt <;> cases shift <;> cases super <;> rfl

lemma ofName?_print (key : Key) : Key.ofName? key.print = some key := by
  cases key with
  | char c => rfl
  | named key => cases key <;> rfl

lemma final_print (key : Key) : Final key.print := by
  cases key with
  | char c =>
    by_cases mark : c = '+'
    · rw [mark]
      exact .inl rfl
    · refine .inr ⟨List.cons_ne_nil _ _, ?_⟩
      rw [Key.print, List.mem_singleton]
      exact Ne.symm mark
  | named key =>
    have word := isWord_name key
    exact .inr ⟨word.1, word.not_mem rfl⟩

lemma lowered_print (h : key.Lowered) : ∀ c ∈ key.print, Casing.Lowered c := by
  cases key with
  | char c =>
    intro d mem
    obtain rfl := List.mem_singleton.mp mem
    exact h
  | named key => exact fun c mem => (isWord_name key).lowered mem

lemma lowerText_print (h : k.key.Lowered) : Casing.lowerText k.print = k.print := by
  apply Casing.lowerText_of_lowered
  rw [print, List.forall_mem_append]
  refine ⟨fun c mem => ?_, lowered_print h⟩
  obtain ⟨name, named, mem⟩ := List.mem_flatMap.mp mem
  rcases List.mem_append.mp mem with mem | mem
  · exact (isWord_of_mem_names named).lowered mem
  · obtain rfl := List.mem_singleton.mp mem
    decide +kernel

/-! ## Reading -/

lemma read_of_split (split : splitKey? (Casing.lowerText text) = some (before, name)) :
    read text =
      (readModifiers text (namesIn before) >>= fun m =>
        match Key.ofName? name with
        | none => .error (.unknownKey text)
        | some key => .ok ⟨key, m⟩) := by
  rw [read, split]
  rfl

/-- A keystroke is read where the key is cut off and the names are those of modifiers and of a key. -/
lemma read_eq_ok_iff :
    read text = .ok k ↔
      ∃ before name, splitKey? (Casing.lowerText text) = some (before, name) ∧
        readModifiers text (namesIn before) = .ok k.modifiers ∧ Key.ofName? name = some k.key := by
  constructor
  · intro h
    cases split : splitKey? (Casing.lowerText text) with
    | none =>
      rw [read, split] at h
      cases h
    | some parts =>
      obtain ⟨before, name⟩ := parts
      rw [read_of_split split] at h
      cases held : readModifiers text (namesIn before) with
      | error _ =>
        rw [held] at h
        cases h
      | ok m =>
        rw [held] at h
        cases named : Key.ofName? name with
        | none =>
          rw [named] at h
          cases h
        | some key =>
          rw [named] at h
          cases h
          exact ⟨before, name, rfl, held, named⟩
  · rintro ⟨before, name, split, held, named⟩
    rw [read_of_split split, held, named]
    rfl

/-- Every key that is read is as lowering leaves it. -/
lemma lowered_of_read (h : read text = .ok k) : k.key.Lowered := by
  obtain ⟨before, name, split, -, named⟩ := read_eq_ok_iff.mp h
  cases key : k.key with
  | named _ => trivial
  | char c =>
    rw [key] at named
    have single : name = [c] := by
      unfold Key.ofName? at named
      split at named
      · cases named
        rfl
      · obtain ⟨_, _, other⟩ := Option.map_eq_some_iff.mp named
        cases other
    exact Casing.lowered_of_mem_lowerText (mem_of_splitKey? split (single ▸ List.mem_singleton_self c))

lemma read_print (h : k.key.Lowered) : read k.print = .ok k := by
  rw [read_eq_ok_iff, lowerText_print h]
  refine ⟨_, _, splitKey?_written (final_print k.key), ?_, ofName?_print k.key⟩
  have names : ∀ name ∈ k.modifiers.names, name ≠ [] ∧ '+' ∉ name := fun name mem =>
    have word := isWord_of_mem_names mem
    ⟨word.1, word.not_mem rfl⟩
  rw [namesIn_join names]
  exact readModifiers_names _ _

/-- What is written for a keystroke is read as that keystroke, whatever modifiers are held down, if its key
is a named key or a character that is its own lower case; and whatever text a keystroke is read from, it is
read again from what is written for it. -/
theorem print_reads_back :
    (∀ k : Keystroke, k.key.Lowered → read k.print = .ok k) ∧
      ∀ text k, read text = .ok k → read k.print = .ok k :=
  ⟨fun _ => read_print, fun _ _ h => read_print (lowered_of_read h)⟩

/-- Marks, brackets and spaces are keys like others; a text with other names, other case and a mark too many
is read as a keystroke too. -/
theorem print_reads_back_marks :
    let all : Modifiers := ⟨true, true, true, true⟩
    let k : Keystroke := ⟨.char '+', { ctrl := true, alt := true }⟩
    (∀ c ∈ ['+', '<', ' '],
        (Key.char c).Lowered ∧ read (print ⟨.char c, all⟩) = .ok ⟨.char c, all⟩) ∧
      k.print = "ctrl+alt++".toList ∧ read "+Option+CMD++".toList = .ok k ∧ read k.print = .ok k := by
  intro all k
  have lowered : ∀ c ∈ ['+', '<', ' '], Casing.Lowered c := by
    rw [List.forall_mem_cons, List.forall_mem_cons, List.forall_mem_singleton]
    decide +kernel
  have accepted : read "+Option+CMD++".toList = .ok k := by decide +kernel
  refine ⟨fun c mem => ⟨lowered c mem, ?_⟩, by decide, accepted, ?_⟩
  · exact print_reads_back.1 ⟨.char c, all⟩ (lowered c mem)
  · exact print_reads_back.2 _ _ accepted

end Keystroke
end FilterEditor
