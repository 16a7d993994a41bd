import FilterEditor.Proofs.Keystroke
import FilterEditor.Script
import Mathlib.Data.List.Chain

/-!
# Written scripts

A script is written by putting keys between angle brackets and naming the bracket that opens keys where it
is part of a text. Reading goes from bracket to bracket: from a bracket that opens a key to the next one that
closes it, whatever stands between them. `scan_induction` follows that way through any text. What is
written for tidy steps is read as those steps, what is read is tidy, and `Fails` says for which texts reading
fails, and why.
-/

namespace FilterEditor

/-- Whether a step types a text. -/
def ScriptStep.IsText : ScriptStep → Prop
  | .text _ => True
  | .key _ => False

namespace Script

/-- A step as it is written in a script. -/
def writeStep : ScriptStep → Text
  | .key k => '<' :: (k.print ++ ['>'])
  | .text text => text.flatMap fun c => if c = '<' then '<' :: (bracketName ++ ['>']) else [c]

/-- Steps as they are written in a script. -/
def write (steps : List ScriptStep) : Text := steps.flatMap writeStep

/-- Steps whose texts are not empty and have keys between them. -/
structure Tidy (steps : List ScriptStep) : Prop where
  nonempty : ∀ text, .text text ∈ steps → text ≠ []
  apart : steps.IsChain fun a b => ¬ (a.IsText ∧ b.IsText)

/-- Tidy steps whose keys can be written: none is the bracket that closes keys. -/
structure Normal (steps : List ScriptStep) : Prop extends Tidy steps where
  writable : ∀ k, .key k ∈ steps → k.key.Lowered ∧ k.key ≠ .char '>'

/-- Going through a text from the left, the first thing wrong with a key in it. -/
inductive Fails : Text → ScriptError → Prop
  | unclosed {rest : Text} (unclosed : '>' ∉ rest) : Fails ('<' :: rest) (.unclosed rest)
  | refused {name rest : Text} {error : KeystrokeError} (closed : '>' ∉ name)
      (other : name ≠ bracketName) (refused : Keystroke.read name = .error error) :
      Fails ('<' :: (name ++ '>' :: rest)) (.invalidKey error)
  | behindChar {c : Char} {rest : Text} {error : ScriptError} (plain : c ≠ '<')
      (behind : Fails rest error) : Fails (c :: rest) error
  | behindKey {name rest : Text} {error : ScriptError} (closed : '>' ∉ name)
      (known : name = bracketName ∨ ∃ k, Keystroke.read name = .ok k) (behind : Fails rest error) :
      Fails ('<' :: (name ++ '>' :: rest)) error

variable {c : Char} {typed before name rest text : Text} {k : Keystroke} {step : ScriptStep}
  {steps : List ScriptStep} {error : ScriptError}

/-! ## From bracket to bracket -/

/-- Every text is gone through character by character and key by key. -/
lemma scan_induction {motive : Text → Prop} (nil : motive [])
    (plain : ∀ c rest, c ≠ '<' → motive rest → motive (c :: rest))
    (unclosed : ∀ rest, '>' ∉ rest → motive ('<' :: rest))
    (bracket : ∀ rest, motive rest → motive ('<' :: (bracketName ++ '>' :: rest)))
    (refused : ∀ name rest error, '>' ∉ name → name ≠ bracketName →
      Keystroke.read name = .error error → motive ('<' :: (name ++ '>' :: rest)))
    (key : ∀ name rest k, '>' ∉ name → name ≠ bracketName → Keystroke.read name = .ok k →
      motive rest → motive ('<' :: (name ++ '>' :: rest))) :
    ∀ text, motive text
  | [] => nil
  | c :: rest => by
    by_cases opening : c = '<'
    · subst opening
      by_cases closing : '>' ∈ rest
      · obtain ⟨name, behind, split, closed⟩ := List.eq_append_cons_of_mem closing
        have shorter : behind.length < rest.length := by
          rw [split, List.length_append, List.length_cons]
          omega
        have later := scan_induction nil plain unclosed bracket refused key behind
        rw [split]
        by_cases other : name = bracketName
        · rw [other]
          exact bracket behind later
        · cases read : Keystroke.read name with
          | error error => exact refused name behind error closed other read
          | ok k => exact key name behind k closed other read later
      · exact unclosed rest closing
    · exact plain c rest opening (scan_induction nil plain unclosed bracket refused key rest)
termination_by text => text.length

lemma stepsFrom_plain (plain : c ≠ '<') :
    stepsFrom typed none (c :: rest) = stepsFrom (typed ++ [c]) none rest := by
  rw [stepsFrom, if_neg plain]

lemma stepsFrom_inside (inside : '>' ∉ name) :
    stepsFrom typed (some before) (name ++ rest) = stepsFrom typed (some (before ++ name)) rest := by
  induction name generalizing before with
  | nil => rw [List.nil_append, List.append_nil]
  | cons c name ih =>
    obtain ⟨other, more⟩ := not_or.mp (List.mem_cons.not.mp inside)
    rw [List.cons_append, stepsFrom, if_neg (Ne.symm other), ih more, List.append_assoc,
      List.singleton_append]

lemma stepsFrom_unclosed (unclosed : '>' ∉ rest) :
    stepsFrom typed none ('<' :: rest) = .error (.unclosed rest) := by
  have inside : stepsFrom typed (some []) (rest ++ []) = stepsFrom typed (some ([] ++ rest)) [] :=
    stepsFrom_inside unclosed
  rw [List.append_nil, List.nil_append, stepsFrom] at inside
  rw [stepsFrom, if_pos rfl, inside]

/-- A key in brackets is read up to the first bracket that closes it. -/
lemma stepsFrom_closed (closed : '>' ∉ name) :
    stepsFrom typed none ('<' :: (name ++ '>' :: rest)) =
      stepsFrom typed (some name) ('>' :: rest) := by
  rw [stepsFrom, if_pos rfl, stepsFrom_inside closed, List.nil_append]

lemma stepsFrom_bracket :
    stepsFrom typed none ('<' :: (bracketName ++ '>' :: rest)) =
      stepsFrom (typed ++ ['<']) none rest := by
  rw [stepsFrom_closed (by decide), stepsFrom, if_pos rfl, if_pos rfl]

lemma stepsFrom_key (closed : '>' ∉ name) (other : name ≠ bracketName)
    (read : Keystroke.read name = .ok k) :
    stepsFrom typed none ('<' :: (name ++ '>' :: rest)) =
      (stepsFrom [] none rest).map (typing typed ++ .key k :: ·) := by
  rw [stepsFrom_closed closed, stepsFrom, if_pos rfl, if_neg other, read]
  cases stepsFrom [] none rest <;> rfl

lemma stepsFrom_refused {error : KeystrokeError} (closed : '>' ∉ name) (other : name ≠ bracketName)
    (refused : Keystroke.read name = .error error) :
    stepsFrom typed none ('<' :: (name ++ '>' :: rest)) = .error (.invalidKey error) := by
  rw [stepsFrom_closed closed, stepsFrom, if_pos rfl, if_neg other, refused]
  rfl

/-! ## Failing -/

lemma Fails.stepsFrom (fails : Fails text error) (typed : Text) :
    stepsFrom typed none text = .error error := by
  induction fails generalizing typed with
  | unclosed unclosed => exact stepsFrom_unclosed unclosed
  | refused closed other refused => exact stepsFrom_refused closed other refused
  | behindChar plain _ ih => rw [stepsFrom_plain plain, ih]
  | @behindKey name _ _ closed known _ ih =>
    by_cases bracket : name = bracketName
    · rw [bracket, stepsFrom_bracket, ih]
    · obtain ⟨k, read⟩ := known.resolve_left bracket
      rw [stepsFrom_key closed bracket read, ih]
      rfl

lemma fails_of_stepsFrom (h : stepsFrom typed none text = .error error) : Fails text error := by
  induction text using scan_induction generalizing typed with
  | nil => cases h
  | plain c rest plain ih =>
    rw [stepsFrom_plain plain] at h
    exact .behindChar plain (ih h)
  | unclosed rest unclosed =>
    rw [stepsFrom_unclosed unclosed] at h
    cases h
    exact .unclosed unclosed
  | bracket rest ih =>
    rw [stepsFrom_bracket] at h
    exact .behindKey (by decide) (.inl rfl) (ih h)
  | refused name rest refusal closed other read =>
    rw [stepsFrom_refused closed other read] at h
    cases h
    exact .refused closed other read
  | key name rest k closed other read ih =>
    rw [stepsFrom_key closed other read] at h
    cases behind : stepsFrom [] none rest with
    | error later =>
      rw [behind] at h
      cases h
      exact .behindKey closed (.inr ⟨k, read⟩) (ih behind)
    | ok steps =>
      rw [behind] at h
      cases h

/-! ## What is read is tidy -/

lemma typing_eq (nonempty : text ≠ []) : typing text = [.text text] :=
  if_neg (List.isEmpty_iff.not.mpr nonempty)

lemma tidy_typing (text : Text) : Tidy (typing text) := by
  rcases eq_or_ne text [] with rfl | nonempty
  · exact ⟨nofun, .nil⟩
  · rw [typing_eq nonempty]
    refine ⟨fun text' mem => ?_, .singleton _⟩
    cases List.mem_singleton.mp mem
    exact nonempty

/-- A key keeps the texts in front of it and behind it apart. -/
lemma Tidy.key (before : Tidy steps) {behind : List ScriptStep} (tidy : Tidy behind) (k : Keystroke) :
    Tidy (steps ++ .key k :: behind) where
  nonempty text mem := by
    rcases List.mem_append.mp mem with mem | mem
    · exact before.nonempty text mem
    · rcases List.mem_cons.mp mem with key | mem
      · cases key
      · exact tidy.nonempty text mem
  apart := by
    have later : (.key k :: behind : List ScriptStep).IsChain fun a b => ¬ (a.IsText ∧ b.IsText) :=
      List.isChain_cons.mpr ⟨fun _ _ both => both.1, tidy.apart⟩
    refine before.apart.append later fun a _ b first both => ?_
    cases Option.mem_some_iff.mp first
    exact both.2

lemma tidy_of_stepsFrom (h : stepsFrom typed none text = .ok steps) : Tidy steps := by
  induction text using scan_induction generalizing typed steps with
  | nil =>
    cases h
    exact tidy_typing typed
  | plain c rest plain ih =>
    rw [stepsFrom_plain plain] at h
    exact ih h
  | unclosed rest unclosed =>
    rw [stepsFrom_unclosed unclosed] at h
    cases h
  | bracket rest ih =>
    rw [stepsFrom_bracket] at h
    exact ih h
  | refused name rest refusal closed other read =>
    rw [stepsFrom_refused closed other read] at h
    cases h
  | key name rest k closed other read ih =>
    rw [stepsFrom_key closed other read] at h
    cases behind : stepsFrom [] none rest with
    | error later =>
      rw [behind] at h
      cases h
    | ok later =>
      rw [behind] at h
      cases h
      exact (tidy_typing typed).key (ih behind) k

/-! ## What is written is read -/

lemma stepsFrom_writeText (text : Text) :
    stepsFrom typed none (writeStep (.text text) ++ rest) = stepsFrom (typed ++ text) none rest := by
  induction text generalizing typed with
  | nil => rw [List.append_nil]; rfl
  | cons c text ih =>
    have first : writeStep (.text (c :: text)) =
        (if c = '<' then '<' :: (bracketName ++ ['>']) else [c]) ++ writeStep (.text text) :=
      List.flatMap_cons
    have more : typed ++ c :: text = (typed ++ [c]) ++ text := List.append_cons typed c text
    rw [first, List.append_assoc, more, ← ih]
    split
    · rename_i opening
      rw [opening, List.cons_append, List.append_assoc, List.singleton_append, stepsFrom_bracket]
    · rename_i plain
      rw [List.singleton_append, stepsFrom_plain plain]

/-- The bracket that closes keys is in what is written for a key only if it is the key. -/
lemma not_mem_print (other : k.key ≠ .char '>') : '>' ∉ k.print := by
  rw [Keystroke.print, List.mem_append, List.mem_flatMap]
  rintro (⟨name, named, mem⟩ | mem)
  · rcases List.mem_append.mp mem with mem | mem
    · exact (Keystroke.isWord_of_mem_names named).not_mem rfl mem
    · cases List.mem_singleton.mp mem
  · cases key : k.key with
    | char c =>
      rw [key] at mem other
      cases List.mem_singleton.mp mem
      exact other rfl
    | named named =>
      rw [key] at mem
      exact (Keystroke.isWord_name named).not_mem rfl mem

/-- The name of the bracket is not the name of a key. -/
lemma print_ne_bracketName (lowered : k.key.Lowered) : k.print ≠ bracketName := by
  intro bracket
  have read := Keystroke.read_print lowered
  have unknown : Keystroke.read bracketName = .error (.unknownKey bracketName) := by decide +kernel
  rw [bracket, unknown] at read
  cases read

lemma stepsFrom_writeKey (lowered : k.key.Lowered) (other : k.key ≠ .char '>') :
    stepsFrom typed none (writeStep (.key k) ++ rest) =
      (stepsFrom [] none rest).map (typing typed ++ .key k :: ·) := by
  rw [writeStep, List.cons_append, List.append_assoc, List.singleton_append]
  exact stepsFrom_key (not_mem_print other) (print_ne_bracketName lowered)
    (Keystroke.read_print lowered)

lemma Normal.tail (h : Normal (step :: steps)) : Normal steps where
  nonempty text mem := h.nonempty text (List.mem_cons_of_mem _ mem)
  apart := h.apart.tail
  writable k mem := h.writable k (List.mem_cons_of_mem _ mem)

/-- The text that was typed so far becomes a step of its own, unless it is empty. -/
lemma stepsFrom_write (h : Normal steps) (fresh : typed ≠ [] → ∀ step ∈ steps.head?, ¬ step.IsText) :
    stepsFrom typed none (write steps) = .ok (typing typed ++ steps) := by
  induction steps generalizing typed with
  | nil => rw [List.append_nil]; rfl
  | cons step steps ih =>
    have first : write (step :: steps) = writeStep step ++ write steps := List.flatMap_cons
    rw [first]
    cases step with
    | key k =>
      obtain ⟨lowered, other⟩ := h.writable k List.mem_cons_self
      rw [stepsFrom_writeKey lowered other, ih h.tail fun typed => (typed rfl).elim]
      rfl
    | text text =>
      have nothing : typed = [] := by
        by_contra nonempty
        exact fresh nonempty _ rfl trivial
      have behind : ∀ step ∈ steps.head?, ¬ step.IsText := fun step mem text =>
        (List.isChain_cons.mp h.apart).1 step mem ⟨trivial, text⟩
      rw [nothing, stepsFrom_writeText, List.nil_append, ih h.tail fun _ => behind,
        typing_eq (h.nonempty text List.mem_cons_self)]
      rfl

/-- Normal steps are read from what is written for them; what is read from any text is tidy; and reading a
text fails just if, going through it from the left, a bracket opens a key that is not closed or whose name is
neither that of the bracket nor read as a keystroke, and then for the first reason of that kind. -/
theorem read_write :
    (∀ steps, Normal steps → read (write steps) = .ok steps) ∧
      (∀ text steps, read text = .ok steps → Tidy steps) ∧
      ∀ text error, read text = .error error ↔ Fails text error := by
  refine ⟨fun steps h => ?_, fun text steps h => tidy_of_stepsFrom h, fun text error => ?_⟩
  · exact stepsFrom_write h fun typed => (typed rfl).elim
  · exact ⟨fails_of_stepsFrom, fun fails => fails.stepsFrom []⟩

/-- Both brackets in a text, and the opening one as a key; a key that is not closed. -/
theorem read_write_brackets :
    let bracket : Keystroke := ⟨.char '<', { ctrl := true }⟩
    let enter : Keystroke := ⟨.named .enter, {}⟩
    let steps : List ScriptStep := [.text "1<2>".toList, .key bracket, .key enter, .text "+".toList]
    Normal steps ∧ write steps = "1<lt>2><ctrl+<><enter>+".toList ∧ read (write steps) = .ok steps ∧
      Tidy steps ∧ read "<lt><enter".toList = .error (.unclosed "enter".toList) ∧
      Fails "<lt><enter".toList (.unclosed "enter".toList) := by
  intro bracket enter steps
  have normal : Normal steps := by
    refine ⟨⟨fun text mem => ?_, ?_⟩, fun k mem => ?_⟩
    · simp only [steps, List.mem_cons, ScriptStep.text.injEq, reduceCtorEq, false_or, or_false,
        List.not_mem_nil] at mem
      rcases mem with rfl | rfl <;> decide
    · exact .cons_cons And.right (.cons_cons And.left (.cons_cons And.left (.singleton _)))
    · simp only [steps, List.mem_cons, ScriptStep.key.injEq, reduceCtorEq, false_or, or_false,
        List.not_mem_nil] at mem
      rcases mem with rfl | rfl
      · exact ⟨(by decide +kernel : Casing.Lowered '<'), by decide⟩
      · exact ⟨trivial, by decide⟩
  have back := read_write.1 steps normal
  have failed : read "<lt><enter".toList = .error (.unclosed "enter".toList) := by decide +kernel
  exact ⟨normal, by decide, back, read_write.2.1 _ _ back, failed, (read_write.2.2 _ _).mp failed⟩

end Script
end FilterEditor
