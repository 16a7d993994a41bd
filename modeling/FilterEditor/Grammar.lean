import FilterEditor.Text.Percent
import FilterEditor.Term

/-!
# Grammars

A grammar says which kind of term is expected next, which tokens may continue a slot, whether the
text of a slot is valid and how a search is prepared before a term is committed. There are two: the
filter grammar of conditions `column operator value` joined by logical operators, with parentheses,
and the plain grammar of free text, which accepts everything.
-/

namespace FilterEditor

/-- The rules an editor follows. -/
inductive Grammar where
  /-- Conditions joined by logical operators, with parentheses. -/
  | filter
  /-- Free text without kinds. -/
  | plain
deriving DecidableEq, Repr

/-- What surrounds a slot. -/
structure Context where
  /-- The text of the trailing input. -/
  pending : Text
  /-- The committed term right before the slot. -/
  preceding : Option Term
deriving DecidableEq, Repr

/-- The tokens that may continue a slot. -/
structure Continuations where
  terms : List Term := []
  /-- Whether the typed text is the start of a longer operator. -/
  isPartial : Bool := false
deriving DecidableEq, Repr

namespace Continuations

/-- The labels of the tokens. -/
def labels (c : Continuations) : List Text := c.terms.map (·.label)

/-- The only token, if its label is `text`. -/
def exactMatch? (text : Text) (c : Continuations) : Option Term :=
  match c.terms with
  | [only] => if only.label = text then some only else none
  | _ => none

/-- A template with its first `%s` replaced by the labels. -/
def message (c : Continuations) : Text → Text
  | [] => []
  | '%' :: 's' :: rest => Text.join [',', ' '] c.labels ++ rest
  | x :: rest => x :: message c rest

end Continuations

/-- What is said about the text of a slot. -/
inductive Verdict where
  | valid
  | invalid (message : Text)
deriving DecidableEq, Repr

namespace Verdict

/-- The message of an invalid text. -/
def message? : Verdict → Option Text
  | valid => none
  | invalid message => some message

/-- Whether the text is valid. -/
def isValid (v : Verdict) : Bool := v.message?.isNone

end Verdict

/-- The relational operators that `typed` is the beginning of. -/
def extendingOperators (typed : Text) : List Term :=
  if typed.isEmpty then []
  else Term.relationalOperators.filter fun t =>
    typed.isPrefixOf t.label && typed.length < t.label.length

/-- The tokens that may follow a complete condition. -/
def joiners : List Term := Term.groupClose :: Term.logicalOperators

/-- The tokens that may follow a column: the longer operators that `typed` is the beginning of, or all
operators where there are none, and the joiners. -/
def operatorsAndJoiners (typed : Text) : Continuations :=
  match extendingOperators typed with
  | [] => ⟨Term.relationalOperators ++ joiners, false⟩
  | longer => ⟨longer ++ joiners, true⟩

namespace Grammar

/-- The kind expected before any term is committed. -/
def initialKind : Grammar → Option Kind
  | filter => some .column
  | plain => none

/-- The kind expected after a term. -/
def nextKind : Grammar → Term → Option Kind
  | plain, _ => none
  | filter, t =>
    match t.kind with
    | none => none
    | some .column => some .operator
    | some .operator => some .value
    | some .value => some .logicalOperator
    | some .logicalOperator => some .column
    | some .groupingOperator => if t.isGroupOpen then some .column else some .logicalOperator

/-- Whether every committed term needs a kind. -/
def requiresKinds : Grammar → Bool
  | filter => true
  | plain => false

/-- The parenthesis that fits behind a term. -/
def groupingAfter (preceding : Term) : List Term :=
  match preceding.kind with
  | some .column | some .operator | some .value => [Term.groupClose]
  | some .logicalOperator => [Term.groupOpen]
  | some .groupingOperator => [preceding]
  | none => []

/-- All tokens that the filter grammar offers to a slot of an expected kind, before the typed text
singles one out. -/
def offered (typed : Text) (expected : Option Kind) (context : Context) : Continuations :=
  match expected with
  | none => {}
  | some .column =>
    if context.pending.isEmpty then
      match context.preceding with
      | none => ⟨[Term.groupOpen], false⟩
      | some t => if t.hasKind .logicalOperator then ⟨[Term.groupOpen], false⟩ else {}
    else operatorsAndJoiners typed
  | some .operator => operatorsAndJoiners typed
  | some .value | some .logicalOperator => ⟨joiners, false⟩
  | some .groupingOperator =>
    match context.preceding with
    | none => {}
    | some t => ⟨groupingAfter t, false⟩

/-- The tokens that may continue a slot: the one whose label is the typed text, if there is one and
the text does not begin a longer operator, and all that are offered otherwise. -/
def continuations (g : Grammar) (typed : Text) (expected : Option Kind) (context : Context) :
    Continuations :=
  match g with
  | plain => {}
  | filter =>
    let all := offered typed expected context
    if all.isPartial || typed.isEmpty then all
    else
      match all.terms.find? (·.label = typed) with
      | some t => ⟨[t], false⟩
      | none => all

/-- What is said about `text` in a slot of a kind: operators, logical operators and parentheses have
to be empty, a token that fits there, or the beginning of a longer operator. -/
def check (g : Grammar) (text : Text) (kind : Option Kind) (context : Context) (template : Text) :
    Verdict :=
  match g with
  | plain => .valid
  | filter =>
    match kind with
    | none | some .column | some .value => .valid
    | some .operator | some .logicalOperator | some .groupingOperator =>
      let options := filter.continuations text kind context
      if text.isEmpty || options.isPartial || (options.exactMatch? text).isSome then .valid
      else .invalid (options.message template)

/-- The tokens that previews of a kind step through. -/
def previewGroup : Option Kind → List Term
  | some .operator => Term.relationalOperators
  | some .logicalOperator => Term.logicalOperators
  | _ => []

/-- The token previewed where a kind is expected. -/
def previewFor (g : Grammar) (expected : Option Kind) : Option Term :=
  match g with
  | plain => none
  | filter => (previewGroup expected).head?

/-- The next token of the group of the current preview, or the one before it, around the end. -/
def cyclePreview (g : Grammar) (current : Term) (forward : Bool) : Option Term :=
  match g with
  | plain => none
  | filter =>
    let group := previewGroup current.kind
    match group.findIdx? (·.label = current.label) with
    | none => none
    | some position =>
      group[(if forward then position + 1 else position + group.length - 1) % group.length]?

/-- A term as it is committed: the filter grammar percent-encodes the search of columns and
values. -/
def prepare (g : Grammar) (t : Term) : Term :=
  match g with
  | plain => t
  | filter =>
    match t.kind with
    | some .column | some .value => { t with search := Percent.encode t.search }
    | _ => t

end Grammar
end FilterEditor
