import FilterEditor.Keymap.Basic

/-!
# Layers of bindings

Bindings of a user lie over given ones: a binding on the same keystroke with the same guards is
replaced, the action `unbound` takes all bindings of its keystroke away, and every other binding is
added.
-/

namespace FilterEditor.Keymap

/-- Replaces the first binding with the same keystroke and guards, or adds the binding at the end. -/
def replaceOrAppend (b : Binding) : List Binding → List Binding
  | [] => [b]
  | first :: rest =>
    if first.keystroke = b.keystroke ∧ first.guards = b.guards then b :: rest
    else first :: replaceOrAppend b rest

/-- Lays one binding over the given ones. -/
def overlay (bindings : List Binding) (b : Binding) : List Binding :=
  if b.action = .unbound then bindings.filter (·.keystroke ≠ b.keystroke)
  else replaceOrAppend b bindings

/-- Lays the bindings of a user over the given ones, one after the other. -/
def merge (base user : List Binding) : List Binding := user.foldl overlay base

end FilterEditor.Keymap
