import FilterEditor.Proofs.Flatten

/-!
# Normal forms of filters

What the full terms of a chain tell about it. The normal form of a filter has no empty members,
writes flags as texts and labels in full, and names the connective of a chain only where two members
are joined by it. `Normal.decode?` reads it back from the terms, one after the other, with a stack of
the chains that are still open; so chains have the same full terms just if they have the same normal
form.
-/

namespace FilterEditor

/-- A filter as far as its full terms tell. -/
inductive Normal where
  /-- A chain of members; `joined` is what stands between them. -/
  | chain (joined : Option Connective) (members : List Normal)
  | condition (column sign value label : Text)
deriving Repr

namespace Tree

/-- What is known of the connective of a chain: nothing, unless it joins two members. -/
def joint (connective : Connective) (members : List Normal) : Option Connective :=
  if members.length < 2 then none else some connective

mutual

/-- The normal form of a filter. -/
def normal : Tree → Normal
  | .chain connective children =>
    .chain (joint connective (normalMembers children)) (normalMembers children)
  | .condition c => .condition c.column c.sign c.value.toText c.columnLabel

/-- The normal forms of the filters that are not empty. -/
def normalMembers : List Tree → List Normal
  | [] => []
  | child :: children =>
    if child.isEmpty then normalMembers children else child.normal :: normalMembers children

end

/-- An empty chain goes with its connective, and the flag becomes a text. -/
example :
    (chain .all [chain .any [], condition ⟨['a'], ['='], .flag false, none⟩]).normal =
      .chain none [.condition ['a'] ['='] ['0'] ['a']] := by
  simp [normal, normalMembers, joint, isEmpty, allEmpty, Operand.toText, Condition.columnLabel]

variable {connective : Connective} {child : Tree} {children rest : List Tree}

lemma normal_chain :
    (chain connective children).normal =
      .chain (joint connective (normalMembers children)) (normalMembers children) := by
  rw [normal]

lemma normalMembers_skip (empty : child.isEmpty) :
    normalMembers (child :: rest) = normalMembers rest := by
  rw [normalMembers, if_pos empty]

lemma normalMembers_keep (some : child.isEmpty = false) :
    normalMembers (child :: rest) = child.normal :: normalMembers rest := by
  rw [normalMembers, some]
  rfl

lemma normalMembers_eq_nil_iff : normalMembers children = [] ↔ allEmpty children := by
  induction children with
  | nil => simp [normalMembers, allEmpty]
  | cons child rest ih =>
    cases empty : child.isEmpty with
    | true => rw [normalMembers_skip empty, allEmpty, empty, Bool.true_and, ih]
    | false => simp [normalMembers_keep empty, allEmpty, empty]

end Tree

/-! ## Printing -/

namespace Normal

mutual

/-- The terms of a normal form as a member of a chain. -/
def memberTerms : Normal → List Term
  | .chain joined members =>
    Term.groupOpen :: (List.intercalate (joined.toList.map Connective.term) (parts members) ++
      [Term.groupClose])
  | .condition column sign value label =>
    [(Term.column column).withLabel label, Term.operator sign, Term.value value]

def parts : List Normal → List (List Term)
  | [] => []
  | member :: members => member.memberTerms :: parts members

end

/-- The terms of members with what stands between them. -/
def chainTerms (joined : Option Connective) (members : List Normal) : List Term :=
  List.intercalate (joined.toList.map Connective.term) (parts members)

lemma length_parts (members : List Normal) : (parts members).length = members.length := by
  induction members with
  | nil => rfl
  | cons member rest ih => rw [parts, List.length_cons, List.length_cons, ih]

/-- Between fewer than two members nothing stands, whatever the connective. -/
lemma chainTerms_joint (connective : Connective) (members : List Normal) :
    chainTerms (Tree.joint connective members) members =
      List.intercalate [connective.term] (parts members) := by
  unfold chainTerms Tree.joint
  split
  · rename_i few
    rw [← length_parts] at few
    match parts members, few with
    | [], _ => rfl
    | [part], _ => rw [List.intercalate_singleton, List.intercalate_singleton]
  · rfl

end Normal

namespace Tree

mutual

lemma memberTerms_normal : ∀ tree : Tree, tree.normal.memberTerms = tree.memberTerms .full
  | .chain connective children => by
    have inner := Normal.chainTerms_joint connective (normalMembers children)
    rw [parts_normal children] at inner
    rw [normal_chain, Normal.memberTerms, ← Normal.chainTerms, inner, memberTerms]
  | .condition c => by
    rw [normal, Normal.memberTerms, memberTerms_condition, Condition.terms_full]

lemma parts_normal : ∀ children : List Tree,
    Normal.parts (normalMembers children) = members .full children
  | [] => by rw [normalMembers, members, Normal.parts]
  | child :: rest => by
    cases empty : child.isEmpty with
    | true => rw [normalMembers_skip empty, members_skip empty, parts_normal rest]
    | false =>
      rw [normalMembers_keep empty, members_keep empty, Normal.parts, memberTerms_normal child,
        parts_normal rest]

end

/-- The full terms of a chain are those of its normal form. -/
lemma chainTerms_normal (connective : Connective) (children : List Tree) :
    Normal.chainTerms (joint connective (normalMembers children)) (normalMembers children) =
      chainTerms .full connective children := by
  rw [Normal.chainTerms_joint, parts_normal, chainTerms]

end Tree

/-! ## Reading back -/

/-- What is read of a condition that is not complete. -/
inductive Pending where
  | nothing
  | column (column : Term)
  | sign (column sign : Term)

/-- A chain as far as it is read. -/
structure Frame where
  joined : Option Connective := none
  members : List Normal := []

namespace Frame

def push (member : Normal) (f : Frame) : Frame := { f with members := f.members ++ [member] }

def normal (f : Frame) : Normal := .chain f.joined f.members

end Frame

/-- What has been read of the terms of a chain. -/
structure Decoder where
  /-- The chains that are open around the innermost one, from the inside outwards. -/
  outer : List Frame := []
  /-- The innermost chain. -/
  frame : Frame := {}
  pending : Pending := .nothing

namespace Decoder

def read (d : Decoder) (t : Term) : Option Decoder :=
  match d.pending, t.kind with
  | .nothing, some .column => some { d with pending := .column t }
  | .column column, some .operator => some { d with pending := .sign column t }
  | .sign column sign, some .value =>
    let condition := Normal.condition column.search sign.search t.search column.label
    some { d with frame := d.frame.push condition, pending := .nothing }
  | .nothing, some .logicalOperator =>
    (Connective.ofSymbol? t.label).map fun connective =>
      { d with frame := { d.frame with joined := some connective } }
  | .nothing, some .groupingOperator =>
    if t.isGroupOpen then some { outer := d.frame :: d.outer }
    else
      match d.outer with
      | [] => none
      | frame :: outer => some { outer, frame := frame.push d.frame.normal }
  | _, _ => none

def readAll (d : Decoder) (ts : List Term) : Option Decoder := ts.foldlM read d

variable {d d' : Decoder} {t : Term} {ts us : List Term}

lemma readAll_cons (h : d.read t = some d') : d.readAll (t :: us) = d'.readAll us := by
  rw [readAll, List.foldlM_cons, h]
  rfl

lemma readAll_append (h : d.readAll ts = some d') : d.readAll (ts ++ us) = d'.readAll us := by
  rw [readAll] at h
  rw [readAll, List.foldlM_append, h]
  rfl

end Decoder

/-- The normal form of the chain that has these full terms. -/
def Normal.decode? (ts : List Term) : Option Normal :=
  match Decoder.readAll {} ts with
  | some ⟨[], frame, .nothing⟩ => some frame.normal
  | _ => none

namespace Tree

lemma read_condition (outer : List Frame) (frame : Frame) (c : Condition) :
    Decoder.readAll ⟨outer, frame, .nothing⟩ (c.terms .full) =
      some ⟨outer, frame.push (condition c).normal, .nothing⟩ := by
  rw [Condition.terms_full, normal]
  rfl

lemma read_connective (outer : List Frame) (frame : Frame) (connective : Connective) :
    Decoder.read ⟨outer, frame, .nothing⟩ connective.term =
      some ⟨outer, { frame with joined := some connective }, .nothing⟩ := by
  cases connective <;> rfl

mutual

/-- Reading the terms of a member adds the member to the innermost chain. -/
lemma read_member (outer : List Frame) (frame : Frame) : ∀ tree : Tree,
    Decoder.readAll ⟨outer, frame, .nothing⟩ (tree.memberTerms .full) =
      some ⟨outer, frame.push tree.normal, .nothing⟩
  | .chain connective children => by
    have inner := read_chain (frame :: outer) {} connective children
    have opened : Decoder.read ⟨outer, frame, .nothing⟩ Term.groupOpen =
        some ⟨frame :: outer, {}, .nothing⟩ := rfl
    rw [memberTerms_chain, Decoder.readAll_cons opened, Decoder.readAll_append inner, normal_chain]
    rfl
  | .condition c => by
    rw [memberTerms_condition]
    exact read_condition outer frame c

/-- Reading the terms of a chain adds its members to the innermost chain, and its connective if it
stands between two of them. -/
lemma read_chain (outer : List Frame) (frame : Frame) (connective : Connective) :
    ∀ children : List Tree,
      Decoder.readAll ⟨outer, frame, .nothing⟩ (chainTerms .full connective children) =
        some ⟨outer,
          ⟨if (normalMembers children).length < 2 then frame.joined else some connective,
            frame.members ++ normalMembers children⟩, .nothing⟩
  | [] => by
    rw [chainTerms_nil, normalMembers, List.append_nil]
    rfl
  | child :: rest => by
    cases empty : child.isEmpty with
    | true =>
      rw [chainTerms_skip empty, normalMembers_skip empty]
      exact read_chain outer frame connective rest
    | false =>
      have first := read_member outer frame child
      cases more : allEmpty rest with
      | true =>
        rw [chainTerms_last empty more, normalMembers_keep empty,
          normalMembers_eq_nil_iff.mpr more]
        exact first
      | false =>
        have joined := read_chain outer { frame.push child.normal with joined := some connective }
          connective rest
        have some : normalMembers rest ≠ [] := by
          rw [Ne, normalMembers_eq_nil_iff, more]
          nofun
        have two : ¬ (normalMembers (child :: rest)).length < 2 := by
          have pos := List.length_pos_iff.mpr some
          rw [normalMembers_keep empty, List.length_cons]
          omega
        -- The connective is read once already, so the rest of the chain may name it again or not.
        rw [ite_self] at joined
        rw [chainTerms_more empty more, Decoder.readAll_append first,
          Decoder.readAll_cons (read_connective _ _ _), joined, if_neg two,
          normalMembers_keep empty, Frame.push, List.append_assoc, List.singleton_append]

end

/-- The decoder recovers the normal form of every chain from its full terms. -/
lemma decode_chainTerms (connective : Connective) (children : List Tree) :
    Normal.decode? (chainTerms .full connective children) =
      some (chain connective children).normal := by
  have all := read_chain [] {} connective children
  rw [Normal.decode?, all, normal_chain]
  rfl

/-- Chains have the same full terms just if they have the same normal form, which can be read off
the terms. -/
theorem chainTerms_full_eq_iff :
    (∀ (connective : Connective) (children : List Tree),
      Normal.decode? (chainTerms .full connective children) =
        some (chain connective children).normal) ∧
      ∀ (k k' : Connective) (children children' : List Tree),
        chainTerms .full k children = chainTerms .full k' children' ↔
          (chain k children).normal = (chain k' children').normal := by
  refine ⟨decode_chainTerms, fun k k' children children' => ⟨fun same => ?_, fun same => ?_⟩⟩
  · have decoded := decode_chainTerms k children
    rw [same, decode_chainTerms] at decoded
    exact (Option.some.inj decoded).symm
  · rw [normal_chain, normal_chain, Normal.chain.injEq] at same
    rw [← chainTerms_normal, ← chainTerms_normal, same.1, same.2]

end Tree
end FilterEditor
