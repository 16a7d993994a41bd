import FilterEditor.Proofs.Reachable
import FilterEditor.Session

/-!
# Batches

Commands may hold batches in batches and commands that do nothing. Batching them takes one command after
the other: nothing is dropped, a batch is taken apart down to its leaves, and a single effect is kept as it
is. What comes out depends on the leaves alone (`gather_eq`), so it does not matter how often and in which
groups commands were batched before (`Grouped.ofList_eq`).
-/

namespace FilterEditor

namespace Command

mutual

/-- The leaves of a command in order: the commands of single effects that it holds at any depth. -/
def leaves : Command → List Command
  | .none => []
  | .one effect => [.one effect]
  | .batch commands => allLeaves commands

/-- The leaves of commands, one after the other. -/
def allLeaves : List Command → List Command
  | [] => []
  | command :: commands => command.leaves ++ allLeaves commands

end

/-- What a batch takes over from one of the commands that it is made of. -/
def parts : Command → List Command
  | .none => []
  | .one effect => [.one effect]
  | .batch commands => commands.flatMap leaves

/-- Nothing, the only command, or a batch. -/
def wrap : List Command → Command
  | [] => .none
  | [command] => command
  | commands => .batch commands

/-- The command that a list of commands is gathered into, one command after the other. -/
def gather (commands : List Command) : Command :=
  wrap (commands.foldl (fun flat command => flat ++ command.parts) [])

/-- The second list of commands is made from the first by batching, again and again, some commands that
stand next to each other. -/
inductive Grouped : List Command → List Command → Prop
  | refl (commands : List Command) : Grouped commands commands
  | batch {commands before group behind : List Command} :
      Grouped commands (before ++ group ++ behind) →
      Grouped commands (before ++ ofList group :: behind)

variable {commands others grouped : List Command} {command : Command}

/-! ## Leaves -/

lemma allLeaves_eq (commands : List Command) : allLeaves commands = commands.flatMap leaves := by
  induction commands with
  | nil => rfl
  | cons command commands ih => rw [allLeaves, ih, List.flatMap_cons]

mutual

/-- The leaves of a command are the commands of its effects. -/
lemma leaves_eq : ∀ command : Command, command.leaves = command.effects.map .one
  | .none => rfl
  | .one _ => rfl
  | .batch commands => allLeaves_eq_map commands

lemma allLeaves_eq_map : ∀ commands : List Command, allLeaves commands = (allEffects commands).map .one
  | [] => rfl
  | command :: commands => by
    rw [allLeaves, allEffects, leaves_eq command, allLeaves_eq_map commands, List.map_append]

end

lemma flatMap_leaves (commands : List Command) :
    commands.flatMap leaves = (allEffects commands).map .one := by
  rw [← allLeaves_eq, allLeaves_eq_map]

/-- A leaf holds no more than itself: it is neither nothing nor a batch. -/
lemma single_of_mem_leaves (mem : command ∈ commands.flatMap leaves) :
    ∃ effect, command = .one effect := by
  rw [flatMap_leaves] at mem
  obtain ⟨effect, _, rfl⟩ := List.mem_map.mp mem
  exact ⟨effect, rfl⟩

lemma allEffects_leaves (commands : List Command) :
    allEffects (commands.flatMap leaves) = allEffects commands := by
  rw [flatMap_leaves]
  induction allEffects commands with
  | nil => rfl
  | cons effect rest ih => exact congrArg (effect :: ·) ih

/-! ## Gathering -/

lemma parts_eq (command : Command) : command.parts = command.leaves := by
  cases command with
  | none => rfl
  | one effect => rfl
  | batch commands => exact (allLeaves_eq commands).symm

lemma wrap_eq (effects : List Effect) : wrap (effects.map .one) = ofEffects effects := by
  cases effects with
  | nil => rfl
  | cons effect rest => cases rest <;> rfl

/-- Gathering commands one after the other comes to batching their effects. -/
lemma gather_eq (commands : List Command) : gather commands = ofList commands := by
  have flat : ∀ flat : List Command,
      commands.foldl (fun flat command => flat ++ command.parts) flat =
        flat ++ commands.flatMap leaves := by
    induction commands with
    | nil => exact fun flat => (List.append_nil flat).symm
    | cons command commands ih =>
      intro flat
      rw [List.foldl_cons, ih, List.flatMap_cons, parts_eq, List.append_assoc]
  rw [gather, flat, List.nil_append, flatMap_leaves, wrap_eq]
  rfl

/-! ## What comes out -/

lemma effects_ofList (commands : List Command) : (ofList commands).effects = allEffects commands :=
  effects_ofEffects _

/-- Nothing is lost, added or moved by batching. -/
lemma leaves_ofList (commands : List Command) :
    (ofList commands).leaves = commands.flatMap leaves := by
  rw [leaves_eq, effects_ofList, flatMap_leaves]

lemma ofList_eq_wrap (commands : List Command) : ofList commands = wrap (commands.flatMap leaves) := by
  rw [flatMap_leaves, wrap_eq]
  rfl

/-- Commands are batched alike just if they have the same leaves. -/
lemma ofList_eq_iff :
    ofList commands = ofList others ↔ commands.flatMap leaves = others.flatMap leaves := by
  constructor
  · intro same
    rw [← leaves_ofList, same, leaves_ofList]
  · intro same
    rw [ofList_eq_wrap, same, ← ofList_eq_wrap]

/-- Batching some neighbours first makes no difference, however often it is done. -/
lemma Grouped.ofList_eq (h : Grouped commands grouped) : ofList grouped = ofList commands := by
  induction h with
  | refl => rfl
  | @batch before group behind _ ih =>
    rw [← ih]
    apply ofList_eq_iff.mpr
    rw [List.flatMap_append, List.flatMap_cons, leaves_ofList, List.flatMap_append,
      List.flatMap_append, List.append_assoc]

lemma isNone_iff : command.isNone = true ↔ command = .none := by
  cases command <;> simp [isNone]

end Command

/-- Carrying out commands together comes to carrying them out one after the other. -/
lemma Session.apply_ofList (s : Session) (commands : List Command) :
    s.apply (Command.ofList commands) = commands.foldl (fun s command => s.apply command) s := by
  rw [apply, Command.effects_ofList]
  induction commands generalizing s with
  | nil => rfl
  | cons command commands ih =>
    rw [Command.allEffects, List.foldl_append, List.foldl_cons]
    exact ih _

namespace Command

/-- A batch has the leaves of its commands in order. It is nothing if there are none, the leaf if there
is one, and otherwise a flat batch of leaves; so it does not depend on how the commands were batched
before, and a session that carries it out carries out the commands one after the other. -/
theorem batch_flattens (commands : List Command) :
    let leaves := commands.flatMap Command.leaves
    gather commands = ofList commands ∧
      (ofList commands).leaves = leaves ∧
      (∀ leaf ∈ leaves, ∃ effect, leaf = .one effect) ∧
      ((ofList commands).isNone = true ↔ leaves = []) ∧
      (∀ leaf, leaves = [leaf] → ofList commands = leaf) ∧
      (2 ≤ leaves.length → ofList commands = .batch leaves) ∧
      ofList leaves = ofList commands ∧
      (∀ grouped, Grouped commands grouped → ofList grouped = ofList commands) ∧
      ∀ s : Session, s.apply (ofList commands) = commands.foldl (fun s command => s.apply command) s := by
  intro leaves
  have wrapped : ofList commands = wrap leaves := ofList_eq_wrap commands
  refine ⟨gather_eq commands, leaves_ofList commands, fun _ => single_of_mem_leaves, ?_, ?_, ?_, ?_,
    fun _ => Grouped.ofList_eq, fun s => s.apply_ofList commands⟩
  · rw [isNone_iff]
    constructor
    · intro none
      have lost : (ofList commands).leaves = leaves := leaves_ofList commands
      rw [none] at lost
      exact lost.symm
    · intro empty
      rw [wrapped, empty]
      rfl
  · intro leaf only
    rw [wrapped, only]
    rfl
  · intro several
    rw [wrapped]
    match leaves, several with
    | _ :: _ :: _, _ => rfl
  · rw [ofList, allEffects_leaves]
    rfl

/-- Batches in batches, with nothing between them: two leaves are left, and they come in one batch. -/
theorem batch_flattens_nested :
    let clear := Command.one (.syncValue [])
    let hide := Command.one (.showPreview .none)
    let commands := [.none, .batch [clear, .batch [.none]], .batch [.batch [hide], .none]]
    let grouped := [ofList [.none, .batch [clear, .batch [.none]]], .batch [.batch [hide], .none]]
    Grouped commands grouped ∧ 2 ≤ (commands.flatMap leaves).length ∧
      ofList commands = .batch [clear, hide] ∧ ofList grouped = .batch [clear, hide] := by
  intro clear hide commands grouped
  obtain ⟨_, _, _, _, _, several, _, regrouped, _⟩ := batch_flattens commands
  have two : commands.flatMap leaves = [clear, hide] := rfl
  have long : 2 ≤ (commands.flatMap leaves).length := Nat.le_refl 2
  have groups : Grouped commands grouped := @Grouped.batch commands [] _ _ (.refl commands)
  exact ⟨groups, long, two ▸ several long, (regrouped grouped groups).trans (two ▸ several long)⟩

end Command
end FilterEditor
