import FilterEditor.Proofs.Adoption
import FilterEditor.Proofs.Json
import FilterEditor.Proofs.Restoring

/-!
# Dumping and restoring

The terms of an editor can be taken out as they are, as JSON text or as slots. Every such dump names the
terms exactly (`Dump.payloadTerms`), and the terms of an editor that was reached are never refused
(`WellFormed.accepted`). A fresh editor with the same settings therefore gets back the terms, and with
them the search string.
-/

namespace FilterEditor

namespace Term

/-! ## Terms as JSON -/

/-- The JSON of a list of terms. -/
def listToJson (terms : List Term) : Json := .array (terms.map toJson)

lemma textual_toJson (t : Term) : t.toJson.Textual := by
  apply Json.textual_of_texts
  intro field mem
  simp only [List.mem_append, List.mem_cons, List.not_mem_nil, or_false, Option.mem_toList,
    Option.map_eq_some_iff] at mem
  rcases mem with ((rfl | rfl) | ⟨tag, _, rfl⟩) | ⟨kind, _, rfl⟩ <;> exact ⟨_, _, rfl⟩

lemma textual_listToJson (terms : List Term) : (listToJson terms).Textual := by
  apply Json.Textual.array
  intro item mem
  obtain ⟨t, _, rfl⟩ := List.mem_map.mp mem
  exact t.textual_toJson

/-- A tag or a kind is written only where a term has it, and lacking where it is not written. -/
lemma ofJson?_toJson (t : Term) : ofJson? t.toJson = some t := by
  obtain ⟨label, search, tag, kind⟩ := t
  cases tag with
  | none =>
    cases kind with
    | none => rfl
    | some kind => cases kind <;> rfl
  | some tag =>
    cases kind with
    | none => rfl
    | some kind => cases kind <;> rfl

lemma mapM_ofJson? (terms : List Term) : (terms.map toJson).mapM ofJson? = some terms := by
  induction terms with
  | nil => rfl
  | cons t terms ih =>
    rw [List.map_cons, List.mapM_cons, ofJson?_toJson, ih]
    rfl

/-- Terms are read from every spelling of their JSON. -/
lemma readList?_of_spells {terms : List Term} {text : Text}
    (spelled : Json.Spells (listToJson terms) text) : readList? text = some terms := by
  rw [readList?, Json.read?_of_spells spelled]
  exact mapM_ofJson? terms

end Term

namespace Editor

variable {e : Editor} {terms : List Term} {payload : Payload}

/-! ## Dumps -/

/-- The payloads that terms are taken out as. -/
inductive Dump (terms : List Term) : Payload → Prop
  | terms : Dump terms (.terms terms)
  /-- JSON text on one line. -/
  | line : Dump terms (.json (Term.listToJson terms).render)
  /-- JSON text over lines. -/
  | lines : Dump terms (.json (Term.listToJson terms).pretty)
  /-- Slots numbered from zero. -/
  | slots : Dump terms (.slots (terms.mapIdx SlotMeta.mk))

lemma payloadTerms_json {text : Text} (spelled : Json.Spells (Term.listToJson terms) text) :
    payloadTerms (.json text) = .ok terms := by
  simp only [payloadTerms, Term.readList?_of_spells spelled]

/-- A dump names the terms that it was taken from. -/
lemma Dump.payloadTerms (dump : Dump terms payload) : Editor.payloadTerms payload = .ok terms := by
  have textual := Term.textual_listToJson terms
  cases dump with
  | terms => rfl
  | line => exact payloadTerms_json (Json.spells_render textual)
  | lines => exact payloadTerms_json (Json.spells_pretty textual)
  | slots => exact payloadTerms_mapIdx terms

lemma WellFormed.restored (h : e.WellFormed) :
    ((new e.settings e.grammar).restore e.terms.terms).terms.terms = e.terms.terms ∧
      ((new e.settings e.grammar).restore e.terms.terms).serialized = e.serialized :=
  ⟨rfl, h.joined.serialized_eq.symm⟩

/-- The terms of an editor that was reached can be dumped and restored: a fresh editor with the same
settings and grammar loads every dump and has the same terms and the same search string then. -/
theorem dump_restored (h : e.Reachable) (dump : Dump e.terms.terms payload) :
    ∃ c, (new e.settings e.grammar).load payload = .ok c ∧
      c.editor.terms.terms = e.terms.terms ∧ c.editor.serialized = e.serialized := by
  have wellFormed := h.wellFormed
  obtain ⟨c, loaded, editor⟩ := load_of_accepted (e := new e.settings e.grammar)
    dump.payloadTerms wellFormed.accepted
  refine ⟨c, loaded, ?_⟩
  rw [editor]
  exact wellFormed.restored

/-- A column with a quote for its name is dumped and restored in each form. -/
theorem dump_restored_quote :
    let e := (new {} .filter).run [.insertText ['"'], .exchange]
    let t : Term := ⟨['"'], "%22", none, some .column⟩
    let text := "[\x7b\"label\":\"\\\"\",\"search\":\"%22\",\"type\":\"column\"\x7d]"
    e.Reachable ∧ e.terms.terms = [t] ∧
      ∀ payload ∈ [.terms [t], .json text, .slots [⟨0, t⟩]],
        Dump e.terms.terms payload ∧
          ∃ c, (new {} .filter).load payload = .ok c ∧ c.editor.serialized = "%22" := by
  intro e t text
  have reachable : e.Reachable := ⟨_, _, .new {} .filter, rfl⟩
  have terms : e.terms.terms = [t] := by decide
  refine ⟨reachable, terms, fun payload mem => ?_⟩
  have written : (Term.listToJson [t]).render = text := by decide
  have dump : Dump e.terms.terms payload := by
    rw [terms]
    simp only [List.mem_cons, List.not_mem_nil, or_false] at mem
    rcases mem with rfl | rfl | rfl
    · exact .terms
    · exact written ▸ .line
    · exact .slots
  obtain ⟨c, loaded, _, serialized⟩ := dump_restored reachable dump
  exact ⟨dump, c, loaded, serialized.trans (by decide)⟩

end Editor
end FilterEditor
