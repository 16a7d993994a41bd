import FilterEditor.Yaml.Node

/-!
# Reading documents

The tokens of a text become one document. Where a node may be missing, an empty scalar stands.
-/

namespace FilterEditor.Yaml

/-- What is read after a step, what is left and which anchors were met. -/
structure Reading (α : Type) where
  result : α
  tokens : List Token
  anchors : Anchors

namespace Reading

/-- Changes what was read. -/
def map (f : α → β) (r : Reading α) : Reading β := ⟨f r.result, r.tokens, r.anchors⟩

end Reading

/-- What handles stand for in every document. -/
def standardHandles : List (Text × Text) :=
  [(['!'], ['!']), (['!', '!'], "tag:yaml.org,2002:")]

/-- The full form of a tag; an unknown handle is refused. -/
def Tag.resolve? (handles : List (Text × Text)) (t : Tag) : Option Text :=
  if t.handle.isEmpty then some t.suffix
  else (handles.lookup t.handle).map (· ++ t.suffix)

/-- What stands before a node: its anchor and its tag. -/
structure Properties where
  anchor : Option Text := none
  tag : Option Tag := none
deriving DecidableEq, Repr

/-- The anchor and the tag at the start of tokens, each at most once, in either order. -/
def properties : List Token → Properties × List Token
  | .anchor name :: .tag t :: rest => (⟨some name, some t⟩, rest)
  | .anchor name :: rest => (⟨some name, none⟩, rest)
  | .tag t :: .anchor name :: rest => (⟨some name, some t⟩, rest)
  | .tag t :: rest => (⟨none, some t⟩, rest)
  | rest => ({}, rest)

/-- Where a node stands. -/
inductive Place where
  /-- Inside brackets. -/
  | flow
  /-- Outside of brackets. -/
  | block
  /-- Beside a key of a block mapping, where a sequence needs no indentation. -/
  | field
deriving DecidableEq, Repr

/-- Whether a token ends an item or a part of a field in a block collection. -/
def endsBlockPart (place : Place) : List Token → Bool
  | .blockEnd :: _ => true
  | .item :: _ => place == .block
  | .key :: _ | .value :: _ => place == .field
  | _ => false

/-- Whether a token ends an item of a sequence without indentation. -/
def endsLooseItem : List Token → Bool
  | .item :: _ | .key :: _ | .value :: _ | .blockEnd :: _ => true
  | _ => false

/-- Whether a token ends a part of a field inside braces. -/
def endsFlowPart : List Token → Bool
  | .comma :: _ | .closeMapping :: _ => true
  | _ => false

/-- Whether a token ends a part of a single field inside square brackets. -/
def endsSinglePart : List Token → Bool
  | .comma :: _ | .closeSequence :: _ => true
  | _ => false

mutual

/-- A node that stands at a place; `fuel` bounds the number of nested steps, in this and the following
functions. -/
def node? (handles : List (Text × Text)) :
    Nat → Place → List Token → Anchors → Option (Reading Node)
  | 0, _, _, _ => none
  | _, _, .alias name :: rest, anchors =>
    (anchors.names.lookup name).map fun number => ⟨.alias number, rest, anchors⟩
  | fuel + 1, place, tokens, anchors => do
    let (properties, tokens) := properties tokens
    let tag ←
      match properties.tag with
      | none => some none
      | some t => (t.resolve? handles).map some
    let (anchored, anchors) :=
      match properties.anchor with
      | none => (none, anchors)
      | some name => (anchors.start name).map some id
    let r ←
      match tokens with
      | .scalar style text :: rest => some ⟨.scalar tag style text, rest, anchors⟩
      | .openSequence :: rest => (flowItems? handles fuel true rest anchors).map (·.map .sequence)
      | .openMapping :: rest => (flowFields? handles fuel true rest anchors).map (·.map .mapping)
      | tokens =>
        match place, tokens with
        | .field, .item :: _ => (looseItems? handles fuel tokens anchors).map (·.map .sequence)
        | .block, .blockSequence :: rest | .field, .blockSequence :: rest =>
          (blockItems? handles fuel rest anchors).map (·.map .sequence)
        | .block, .blockMapping :: rest | .field, .blockMapping :: rest =>
          (blockFields? handles fuel rest anchors).map (·.map .mapping)
        | _, tokens =>
          if properties = {} then none else some ⟨.scalar tag .plain [], tokens, anchors⟩
    some { r with anchors := r.anchors.complete anchored r.result }

/-- The items of a block sequence. -/
def blockItems? (handles : List (Text × Text)) :
    Nat → List Token → Anchors → Option (Reading (List Node))
  | 0, _, _ => none
  | fuel + 1, .item :: tokens, anchors => do
    let item ←
      if endsBlockPart .block tokens then some ⟨Node.empty, tokens, anchors⟩
      else node? handles fuel .block tokens anchors
    let items ← blockItems? handles fuel item.tokens item.anchors
    some (items.map (item.result :: ·))
  | _, .blockEnd :: tokens, anchors => some ⟨[], tokens, anchors⟩
  | _, _, _ => none

/-- The items of a sequence without indentation. -/
def looseItems? (handles : List (Text × Text)) :
    Nat → List Token → Anchors → Option (Reading (List Node))
  | 0, _, _ => none
  | fuel + 1, .item :: tokens, anchors => do
    let item ←
      if endsLooseItem tokens then some ⟨Node.empty, tokens, anchors⟩
      else node? handles fuel .block tokens anchors
    let items ← looseItems? handles fuel item.tokens item.anchors
    some (items.map (item.result :: ·))
  | _, tokens, anchors => some ⟨[], tokens, anchors⟩

/-- A key or a value of a block mapping. -/
def blockPart? (handles : List (Text × Text)) :
    Nat → List Token → Anchors → Option (Reading Node)
  | 0, _, _ => none
  | fuel + 1, tokens, anchors =>
    if endsBlockPart .field tokens then some ⟨Node.empty, tokens, anchors⟩
    else node? handles fuel .field tokens anchors

/-- The fields of a block mapping. -/
def blockFields? (handles : List (Text × Text)) :
    Nat → List Token → Anchors → Option (Reading (List (Node × Node)))
  | 0, _, _ => none
  | fuel + 1, .key :: tokens, anchors => do
    let key ← blockPart? handles fuel tokens anchors
    let value ←
      match key.tokens with
      | .value :: tokens => blockPart? handles fuel tokens key.anchors
      | tokens => some ⟨Node.empty, tokens, key.anchors⟩
    let fields ← blockFields? handles fuel value.tokens value.anchors
    some (fields.map ((key.result, value.result) :: ·))
  | _, .blockEnd :: tokens, anchors => some ⟨[], tokens, anchors⟩
  | _, _, _ => none

/-- The items of a sequence in square brackets; all but the first need a comma before them. -/
def flowItems? (handles : List (Text × Text)) :
    Nat → Bool → List Token → Anchors → Option (Reading (List Node))
  | 0, _, _, _ => none
  | _, _, .closeSequence :: tokens, anchors => some ⟨[], tokens, anchors⟩
  | fuel + 1, first, tokens, anchors => do
    let tokens ←
      match first, tokens with
      | true, tokens => some tokens
      | false, .comma :: tokens => some tokens
      | false, _ => none
    match tokens with
    | .closeSequence :: tokens => some ⟨[], tokens, anchors⟩
    | .key :: tokens =>
      let field ← singleField? handles fuel tokens anchors
      let items ← flowItems? handles fuel false field.tokens field.anchors
      some (items.map (field.result :: ·))
    | tokens =>
      let item ← node? handles fuel .flow tokens anchors
      let items ← flowItems? handles fuel false item.tokens item.anchors
      some (items.map (item.result :: ·))

/-- A field without braces inside square brackets. A missing key takes the next token with it. -/
def singleField? (handles : List (Text × Text)) :
    Nat → List Token → Anchors → Option (Reading Node)
  | 0, _, _ => none
  | fuel + 1, tokens, anchors => do
    let key ←
      match tokens with
      | .value :: tokens | .comma :: tokens | .closeSequence :: tokens =>
        some ⟨Node.empty, tokens, anchors⟩
      | tokens => node? handles fuel .flow tokens anchors
    let value ←
      match key.tokens with
      | .value :: tokens =>
        if endsSinglePart tokens then some ⟨Node.empty, tokens, key.anchors⟩
        else node? handles fuel .flow tokens key.anchors
      | tokens => some ⟨Node.empty, tokens, key.anchors⟩
    some (value.map fun value => .mapping [(key.result, value)])

/-- The fields of a mapping in braces; all but the first need a comma before them. -/
def flowFields? (handles : List (Text × Text)) :
    Nat → Bool → List Token → Anchors → Option (Reading (List (Node × Node)))
  | 0, _, _, _ => none
  | _, _, .closeMapping :: tokens, anchors => some ⟨[], tokens, anchors⟩
  | fuel + 1, first, tokens, anchors => do
    let tokens ←
      match first, tokens with
      | true, tokens => some tokens
      | false, .comma :: tokens => some tokens
      | false, _ => none
    match tokens with
    | .closeMapping :: tokens => some ⟨[], tokens, anchors⟩
    | .key :: tokens =>
      let field ← flowField? handles fuel tokens anchors
      let fields ← flowFields? handles fuel false field.tokens field.anchors
      some (fields.map (field.result :: ·))
    | tokens =>
      let key ← node? handles fuel .flow tokens anchors
      let fields ← flowFields? handles fuel false key.tokens key.anchors
      some (fields.map ((key.result, Node.empty) :: ·))

/-- A field with a key inside braces. -/
def flowField? (handles : List (Text × Text)) :
    Nat → List Token → Anchors → Option (Reading (Node × Node))
  | 0, _, _ => none
  | fuel + 1, tokens, anchors => do
    let key ←
      match tokens with
      | .value :: _ => some ⟨Node.empty, tokens, anchors⟩
      | tokens =>
        if endsFlowPart tokens then some ⟨Node.empty, tokens, anchors⟩
        else node? handles fuel .flow tokens anchors
    let value ←
      match key.tokens with
      | .value :: tokens =>
        if endsFlowPart tokens then some ⟨Node.empty, tokens, key.anchors⟩
        else node? handles fuel .flow tokens key.anchors
      | tokens => some ⟨Node.empty, tokens, key.anchors⟩
    some (value.map (key.result, ·))

end

/-- The directives before a document: what handles stand for, with what follows. At most one version may
stand there, and each handle once. -/
def directives? : Bool → List (Text × Text) → List Token → Option (List (Text × Text) × List Token)
  | versioned, handles, .directive (.version major minor) :: rest =>
    if versioned || major ≠ 1 || (minor ≠ 1 && minor ≠ 2) then none
    else directives? true handles rest
  | versioned, handles, .directive (.handle handle text) :: rest =>
    if (handles.lookup handle).isSome then none
    else directives? versioned (handles ++ [(handle, text)]) rest
  | _, handles, rest => some (handles, rest)

/-- Whether nothing but ends of the document follows. -/
def isOver (tokens : List Token) : Bool := tokens.all (· = .documentEnd)

/-- The document of a node and what follows it. -/
def Document.ofReading? (r : Reading Node) : Option Document :=
  if isOver r.tokens then some ⟨r.result, r.anchors⟩ else none

/-- The one document of tokens; no tokens are an empty document. -/
def Document.ofTokens? (tokens : List Token) : Option Document :=
  let fuel := 2 * tokens.length + 2
  match tokens with
  | [] => some ⟨.empty, {}⟩
  | .directive _ :: _ | .documentStart :: _ =>
    match directives? false [] tokens with
    | some (handles, .documentStart :: rest) =>
      match rest with
      | [] | .documentEnd :: _ => Document.ofReading? ⟨.empty, rest, {}⟩
      | rest => (node? (handles ++ standardHandles) fuel .block rest {}).bind Document.ofReading?
    | _ => none
  | tokens => (node? standardHandles fuel .block tokens {}).bind Document.ofReading?

/-- The one document of a text. -/
def Document.read? (text : Text) : Option Document := (tokens? text).bind Document.ofTokens?

end FilterEditor.Yaml
