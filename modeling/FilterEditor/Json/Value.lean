import FilterEditor.Text.Basic

/-!
# JSON values

A JSON document as it is written: objects keep the order of their fields and repeated names, and
numbers keep their digits. Every text that follows the grammar is a value; what a reader may demand
beyond the grammar is stated here as properties of values: whole characters, numbers in range and
a bound on the nesting.
-/

namespace FilterEditor

namespace Json

/-- The text of a string literal; `none` if an escape names half of a surrogate pair. -/
abbrev Str := Option Text

/-- A number as it is written. -/
structure Number where
  negative : Bool
  whole : Text
  fraction : Text
  /-- The exponent with its sign, if one is written. -/
  exponent : Option (Bool × Text)
deriving DecidableEq, Repr

end Json

/-- A JSON value. -/
inductive Json where
  | null
  | bool (value : Bool)
  | number (value : Json.Number)
  | string (value : Json.Str)
  | array (items : List Json)
  | object (fields : List (Json.Str × Json))
deriving Repr, BEq

namespace Json

/-- A number rounded to 53 binary digits; a tie goes to the even neighbour. -/
def round53 (n : Nat) : Nat :=
  let unit := Nat.pow 2 (n.log2 + 1 - 53)
  let quotient := n / unit
  let twice := 2 * (n % unit)
  let up := unit < twice || (unit == twice && quotient % 2 == 1)
  (if up then quotient + 1 else quotient) * unit

/-- The value of decimal digits. -/
def digitsValue (digits : Text) : Nat :=
  digits.foldl (fun n c => 10 * n + (c.toNat - 0x30)) 0

/-- Reads digits into a significand as long as it fits 64 bits; also gives the digits left over. -/
def takeSignificand (significand : Nat) : Text → Nat × Text
  | [] => (significand, [])
  | c :: rest =>
    let next := 10 * significand + (c.toNat - 0x30)
    if next < 2 ^ 64 then takeSignificand next rest else (significand, c :: rest)

namespace Number

/-- The significand and the power of ten of the written digits, without the written exponent. -/
def scaled (n : Number) : Nat × Int :=
  match takeSignificand 0 n.whole with
  | (significand, []) =>
    let (significand, left) := takeSignificand significand n.fraction
    (significand, -((n.fraction.length - left.length : Nat) : Int))
  | (significand, left) =>
    let (significand', left') := takeSignificand significand n.fraction
    (significand', (left.length : Int) - ((n.fraction.length - left'.length : Nat) : Int))

/-- Whether a number lies beyond the largest finite double: the significand and the power of ten are
rounded, then their product. -/
def overflows (n : Number) : Bool :=
  let (significand, power) := n.scaled
  let power :=
    match n.exponent with
    | none => power
    | some (true, digits) => power - digitsValue digits
    | some (false, digits) => power + digitsValue digits
  significand != 0 &&
    match power with
    | .negSucc _ => false
    | .ofNat p =>
      308 < p || Nat.pow 2 1024 - Nat.pow 2 970 ≤ round53 significand * round53 (Nat.pow 10 p)

end Number

mutual

/-- Whether all strings hold whole characters and all numbers are in range. -/
def isSound : Json → Bool
  | null => true
  | bool _ => true
  | number n => !n.overflows
  | string s => s.isSome
  | array items => allSound items
  | object fields => fieldsSound fields

/-- Whether all values of a list are sound. -/
def allSound : List Json → Bool
  | [] => true
  | item :: items => item.isSound && allSound items

/-- Whether all names and values of a list of fields are sound. -/
def fieldsSound : List (Str × Json) → Bool
  | [] => true
  | (name, value) :: fields => name.isSome && value.isSound && fieldsSound fields

end

mutual

/-- How many arrays and objects are nested at most. -/
def depth : Json → Nat
  | array items => maxDepth items + 1
  | object fields => fieldsDepth fields + 1
  | _ => 0

/-- The largest depth of the values of a list. -/
def maxDepth : List Json → Nat
  | [] => 0
  | item :: items => max item.depth (maxDepth items)

/-- The largest depth of the values of a list of fields. -/
def fieldsDepth : List (Str × Json) → Nat
  | [] => 0
  | (_, value) :: fields => max value.depth (fieldsDepth fields)

end

/-- What an object holds under a name. -/
inductive Field where
  | missing
  | value (value : Json)
  | repeated
deriving Repr, BEq

/-- What fields hold under a name. -/
def field (name : Text) (fields : List (Str × Json)) : Field :=
  match fields.filter (·.1 = some name) with
  | [] => .missing
  | [(_, value)] => .value value
  | _ => .repeated

end Json
end FilterEditor
