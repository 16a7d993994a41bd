import FilterEditor.CommandLine.Storage
import FilterEditor.Proofs.Filing
import FilterEditor.Proofs.Records

/-!
# Stored settings

Settings are written as a record whose names are all different. A text is read back as it is, and a
placeholder is not taken for nothing, as what would read as nothing is never written plain
(`optionalText?_ofText`). So the settings that are written are the ones that are read, whatever their texts
hold (`Settings.read?_write`), and settings that were saved load back from wherever a file can be written
(`saved_settings_load`).
-/

namespace FilterEditor

namespace Yaml

variable {name text : Text} (d : Document) (named : Scanner.IsName name)

lemma text?_ofText (text : Text) : d.text? (Field.ofText name text named).node = some text := rfl

lemma bool?_ofBool (flag : Bool) : d.bool? (Field.ofBool name flag named).node = some flag := by
  cases flag <;> rfl

/-- What says that there is nothing would read as something else than a text. -/
lemma isAmbiguous_of_isNull (null : text.isEmpty = true ∨ isNull text = true) :
    isAmbiguous text = true := by
  rcases null with empty | null
  · rw [List.isEmpty_iff.mp empty]
    decide
  · simp only [isNull, Bool.or_eq_true, decide_eq_true_eq] at null
    rcases null with ((rfl | rfl) | rfl) | rfl <;> decide

/-- A text that may be missing is there, whatever it holds. -/
lemma optionalText?_ofText (text : Text) :
    d.optionalText? (Field.ofText name text named).node = some (some text) := by
  show d.optionalText? (.scalar none (TextForm.of text).readAs text) = _
  cases style : (TextForm.of text).readAs with
  | plain =>
    have clear := not_isAmbiguous_of_plain style
    have present : (text.isEmpty || isNull text) = false := by
      rw [← Bool.not_eq_true, Bool.or_eq_true]
      intro null
      rw [isAmbiguous_of_isNull null] at clear
      cases clear
    show some (if text.isEmpty || isNull text then none else some text) = _
    rw [present]
    rfl
  | quoted | literal | folded => rfl

end Yaml

namespace Settings

open Yaml (Field)

/-- The fields that are written for settings. -/
def fields (s : Settings) : List Field :=
  Field.ofText "separator" s.separator :: Field.ofText "choose_template" s.chooseTemplate ::
    ((s.placeholder.map fun text => Field.ofText "placeholder" text).toList ++
      [Field.ofBool "term_completion" s.termCompletion, Field.ofBool "manage_required" s.manageRequired])

lemma write_eq (s : Settings) : s.write = s.fields.flatMap Field.lines := by
  cases placeholder : s.placeholder with
  | none => simp [write, fields, placeholder, Field.lines, Field.ofText, Field.ofBool]
  | some text => simp [write, fields, placeholder, Field.lines, Field.ofText, Field.ofBool]

/-- The names of the fields that are written. -/
lemma names_fields (s : Settings) :
    s.fields.map Field.name =
      ["separator".toList, "choose_template".toList] ++
        (s.placeholder.map fun _ => "placeholder".toList).toList ++
          ["term_completion".toList, "manage_required".toList] := by
  cases placeholder : s.placeholder with
  | none =>
    rw [fields, placeholder]
    rfl
  | some text =>
    rw [fields, placeholder]
    rfl

/-- No field is written twice. -/
lemma nodup_fields (s : Settings) : (s.fields.map Field.name).Nodup := by
  rw [names_fields]
  cases s.placeholder with
  | none => decide
  | some text =>
    rw [Option.map_some]
    decide

/-- A placeholder that is not set is not written, and read as such; one that is set is read back. -/
lemma fieldOr?_placeholder (s : Settings) (d : Yaml.Document) :
    Yaml.fieldOr? (s.fields.map Field.entry) "placeholder" d.optionalText? none = some s.placeholder := by
  cases placeholder : s.placeholder with
  | none =>
    apply Yaml.fieldOr?_of_not_mem
    rw [names_fields, placeholder]
    decide
  | some text =>
    have mem : Field.ofText "placeholder" text ∈ s.fields := by simp [fields, placeholder]
    exact (Yaml.fieldOr?_of_mem s.nodup_fields mem _ _).trans (Yaml.optionalText?_ofText d _ text)

lemma fieldOr?_text (s : Settings) (d : Yaml.Document) {name text : Text} {named : Yaml.Scanner.IsName name}
    (mem : Field.ofText name text named ∈ s.fields) (default : Text) :
    Yaml.fieldOr? (s.fields.map Field.entry) name d.text? default = some text :=
  (Yaml.fieldOr?_of_mem s.nodup_fields mem _ _).trans (Yaml.text?_ofText d named text)

lemma fieldOr?_bool (s : Settings) (d : Yaml.Document) {name : Text} {flag : Bool}
    {named : Yaml.Scanner.IsName name} (mem : Field.ofBool name flag named ∈ s.fields) (default : Bool) :
    Yaml.fieldOr? (s.fields.map Field.entry) name d.bool? default = some flag :=
  (Yaml.fieldOr?_of_mem s.nodup_fields mem _ _).trans (Yaml.bool?_ofBool d named flag)

/-- Settings that are written are read back. -/
lemma read?_write (s : Settings) : read? s.write = some s := by
  have separator : Field.ofText "separator" s.separator ∈ s.fields := by simp [fields]
  have chooseTemplate : Field.ofText "choose_template" s.chooseTemplate ∈ s.fields := by simp [fields]
  have termCompletion : Field.ofBool "term_completion" s.termCompletion ∈ s.fields := by simp [fields]
  have manageRequired : Field.ofBool "manage_required" s.manageRequired ∈ s.fields := by simp [fields]
  rw [read?, write_eq, Yaml.read?_record s.fields (List.cons_ne_nil _ _), Option.bind_some, ofDocument?]
  dsimp only
  rw [Yaml.fields?_record, Option.bind_eq_bind, Option.bind_some, s.fieldOr?_text _ separator,
    s.fieldOr?_text _ chooseTemplate, s.fieldOr?_placeholder, s.fieldOr?_bool _ termCompletion,
    s.fieldOr?_bool _ manageRequired]
  rfl

end Settings

namespace CommandLine.FileTree

variable {path : Text} {s : Settings} {t t' : FileTree}

/-- A step that fails leaves the files as they were. -/
lemma run_attempt_bind {α : Type} (step : FileTree → Option FileTree) (f : Bool → StateM FileTree α)
    (t : FileTree) :
    (attempt step >>= f).run t =
      match step t with
      | some t' => (f true).run t'
      | none => (f false).run t := by
  show (match attempt step t with | (done, t') => f done t') = _
  rw [attempt]
  cases step t <;> rfl

/-- Saving makes the directories on the way and writes the file. -/
lemma run_saveSettings (path : Text) (s : Settings) (t : FileTree) :
    (files.saveSettings path s).run t = (.ok (), t') ↔ store? path s.write t = some t' := by
  rw [Files.saveSettings, store?]
  show (attempt (makeDirectories? (parentPath path)) >>= _).run t = _ ↔ _
  rw [run_attempt_bind]
  cases makeDirectories? (parentPath path) t with
  | none => constructor <;> intro h <;> cases h
  | some t =>
    dsimp only
    rw [if_pos rfl, Option.bind_some]
    show (attempt (write? path s.write) >>= _).run t = _ ↔ _
    rw [run_attempt_bind]
    cases write? path s.write t with
    | none => constructor <;> intro h <;> cases h
    | some t => constructor <;> intro h <;> cases h <;> rfl

lemma run_loadSettings (found : t.entry path = .file s.write) :
    (files.loadSettings path).run t = (.ok s, t) := by
  show ((t.entry path).settings, t) = _
  rw [found, Entry.settings, Settings.read?_write]

/-- Settings can be saved wherever a file can be written, and settings that were saved load back as they
were. -/
theorem saved_settings_load (path : Text) (s : Settings) (t : FileTree) :
    ((∃ t', (files.saveSettings path s).run t = (.ok (), t')) ↔ t.Writable path) ∧
      ∀ t', (files.saveSettings path s).run t = (.ok (), t') →
        (files.loadSettings path).run t' = (.ok s, t') := by
  simp only [run_saveSettings]
  constructor
  · constructor
    · rintro ⟨t', stored⟩
      exact writable_of_store stored
    · intro writable
      obtain ⟨t', stored, _⟩ := writable.store s.write
      exact ⟨t', stored⟩
  · intro t' stored
    obtain ⟨there, stored', found⟩ := (writable_of_store stored).store s.write
    cases Option.some.inj (stored.symm.trans stored')
    exact run_loadSettings found

/-- Texts that look like something else, an empty one and one over several lines come back, from a directory
that has to be made. -/
theorem saved_settings_load_marked :
    ∃ t', (files.saveSettings "conf/editor.yaml"
          { separator := "- a\n\n ~ ", chooseTemplate := "", placeholder := some "~" }).run {} =
        (.ok (), t') ∧
      (files.loadSettings "conf/editor.yaml").run t' =
        (.ok { separator := "- a\n\n ~ ", chooseTemplate := "", placeholder := some "~" }, t') := by
  have writable : Writable "conf/editor.yaml" {} := by
    refine ⟨by decide, by decide, ?_⟩
    intro part nonempty _ content
    rw [List.nil_append, find, if_neg (by simpa using nonempty)]
    exact Entry.noConfusion
  have saves := saved_settings_load "conf/editor.yaml"
    { separator := "- a\n\n ~ ", chooseTemplate := "", placeholder := some "~" } {}
  obtain ⟨t', saved⟩ := saves.1.mpr writable
  exact ⟨t', saved, saves.2 t' saved⟩

end CommandLine.FileTree
end FilterEditor
