import FilterEditor.Yaml.Token

/-!
# Nodes of YAML

A document is a tree of scalars, sequences and mappings. An alias stands for a node with an anchor, which
may also be one of the nodes around it, so aliases are resolved only when a node is looked at.
-/

namespace FilterEditor.Yaml

/-- A node. -/
inductive Node where
  /-- A scalar with the full form of its tag. -/
  | scalar (tag : Option Text) (style : Style) (text : Text)
  | sequence (items : List Node)
  | mapping (fields : List (Node × Node))
  /-- Another node, by the number of its anchor. -/
  | alias (number : Nat)
deriving Repr, BEq

namespace Node

/-- The scalar that stands where nothing is written. -/
def empty : Node := scalar none .plain []

/-- Whether nothing is written. -/
def isEmpty : Node → Bool
  | scalar _ .plain [] => true
  | _ => false

end Node

/-- The anchors of a document. Their numbers count the different names so far, so a name that is used
again takes a number that the next new name shares; the node written last has the number. -/
structure Anchors where
  /-- The numbers of the names, the latest first. -/
  names : List (Text × Nat) := []
  /-- How many different names there are. -/
  distinct : Nat := 0
  /-- For every anchored node in the order in which they begin, the latest first, its number. -/
  begun : List Nat := []
  /-- The anchored nodes that are complete, with their places in that order. -/
  nodes : List (Nat × Node) := []
deriving Repr, BEq

namespace Anchors

/-- Begins a node with an anchor; also gives its place in the order of anchored nodes. -/
def start (name : Text) (a : Anchors) : Nat × Anchors :=
  (a.begun.length,
    { a with
      names := (name, a.distinct) :: a.names
      distinct := if (a.names.lookup name).isSome then a.distinct else a.distinct + 1
      begun := a.distinct :: a.begun })

/-- Completes the node at a place. -/
def complete (place : Option Nat) (node : Node) (a : Anchors) : Anchors :=
  match place with
  | none => a
  | some place => { a with nodes := (place, node) :: a.nodes }

/-- The node that an alias stands for. -/
def node? (number : Nat) (a : Anchors) : Option Node :=
  (a.begun.findIdx? (· = number)).bind fun back => a.nodes.lookup (a.begun.length - 1 - back)

end Anchors

/-- A document: its outermost node and its anchors. -/
structure Document where
  root : Node
  anchors : Anchors := {}
deriving Repr, BEq

/-- The node itself, or the node that it is an alias of. -/
def Document.resolve (d : Document) : Node → Node
  | .alias number => (d.anchors.node? number).getD .empty
  | node => node

end FilterEditor.Yaml
