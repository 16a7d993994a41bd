import FilterEditor.Json.Value
import FilterEditor.Text.Hex

/-!
# Reading JSON

The reader follows the grammar of JSON and nothing else: one value with white space around it. Every
step takes text and gives what it read with the text that follows.
-/

namespace FilterEditor.Json

/-- Drops the white space of JSON at the start of a text. -/
def skipBlanks (text : Text) : Text :=
  text.dropWhile fun c => c == ' ' || c == '\t' || c == '\n' || c == '\r'

/-- The code point of a one-letter escape. -/
def shortEscape? : Char → Option Nat
  | '"' => some 0x22
  | '\\' => some 0x5C
  | '/' => some 0x2F
  | 'b' => some 0x08
  | 'f' => some 0x0C
  | 'n' => some 0x0A
  | 'r' => some 0x0D
  | 't' => some 0x09
  | _ => none

/-- The code points of a string literal behind its opening quote, halves of surrogate pairs still
apart. -/
def stringUnits : Text → Option (List Nat × Text)
  | [] => none
  | '"' :: rest => some ([], rest)
  | '\\' :: 'u' :: a :: b :: c :: d :: rest => do
    let unit ← Hex.number? [a, b, c, d]
    let (units, rest) ← stringUnits rest
    some (unit :: units, rest)
  | '\\' :: e :: rest => do
    let unit ← shortEscape? e
    let (units, rest) ← stringUnits rest
    some (unit :: units, rest)
  | c :: rest =>
    if c.toNat < 0x20 || c == '\\' then none
    else do
      let (units, rest) ← stringUnits rest
      some (c.toNat :: units, rest)

/-- Whether a code point is the first half of a surrogate pair. -/
def isHighHalf (n : Nat) : Bool := 0xD800 ≤ n && n ≤ 0xDBFF

/-- Whether a code point is the second half of a surrogate pair. -/
def isLowHalf (n : Nat) : Bool := 0xDC00 ≤ n && n ≤ 0xDFFF

/-- The text of code points, surrogate pairs joined; `none` if a half stands alone. -/
def joinHalves : List Nat → Str
  | [] => some []
  | [n] => if isHighHalf n || isLowHalf n then none else some [Char.ofNat n]
  | n :: m :: rest =>
    if isHighHalf n then
      if isLowHalf m then
        (joinHalves rest).map
          (Char.ofNat (0x10000 + (n - 0xD800) * 0x400 + (m - 0xDC00)) :: ·)
      else none
    else if isLowHalf n then none
    else (joinHalves (m :: rest)).map (Char.ofNat n :: ·)

/-- A string literal behind its opening quote. -/
def string? (text : Text) : Option (Str × Text) :=
  (stringUnits text).map fun (units, rest) => (joinHalves units, rest)

/-- The digits at the start of a text, at least one. -/
def digits? (text : Text) : Option (Text × Text) :=
  let digits := text.takeWhile Char.isDigit
  if digits.isEmpty then none else some (digits, text.dropWhile Char.isDigit)

/-- The digits before the point: a zero stands alone. -/
def whole? (text : Text) : Option (Text × Text) := do
  let (digits, rest) ← digits? text
  if digits.length ≠ 1 && digits.head? == some '0' then none else some (digits, rest)

/-- The point and the digits behind it, if there is a point. -/
def fraction? : Text → Option (Text × Text)
  | '.' :: rest => digits? rest
  | text => some ([], text)

/-- The sign of an exponent. -/
def exponentSign : Text → Bool × Text
  | '+' :: rest => (false, rest)
  | '-' :: rest => (true, rest)
  | text => (false, text)

/-- The exponent, if one is marked. -/
def exponent? : Text → Option (Option (Bool × Text) × Text)
  | c :: rest =>
    if c == 'e' || c == 'E' then do
      let (negative, rest) := exponentSign rest
      let (digits, rest) ← digits? rest
      some (some (negative, digits), rest)
    else some (none, c :: rest)
  | [] => some (none, [])

/-- A number behind its sign. -/
def unsigned? (negative : Bool) (text : Text) : Option (Json × Text) := do
  let (whole, text) ← whole? text
  let (fraction, text) ← fraction? text
  let (exponent, text) ← exponent? text
  some (number ⟨negative, whole, fraction, exponent⟩, text)

/-- A number. -/
def number? : Text → Option (Json × Text)
  | '-' :: rest => unsigned? true rest
  | text => unsigned? false text

mutual

/-- A value, with as many nested steps as `fuel` allows. -/
def value? : Nat → Text → Option (Json × Text)
  | 0, _ => none
  | fuel + 1, text =>
    match skipBlanks text with
    | 'n' :: 'u' :: 'l' :: 'l' :: rest => some (null, rest)
    | 't' :: 'r' :: 'u' :: 'e' :: rest => some (bool true, rest)
    | 'f' :: 'a' :: 'l' :: 's' :: 'e' :: rest => some (bool false, rest)
    | '"' :: rest => (string? rest).map fun (s, rest) => (string s, rest)
    | '[' :: rest =>
      match skipBlanks rest with
      | ']' :: rest => some (array [], rest)
      | rest => (items? fuel rest).map fun (items, rest) => (array items, rest)
    | '\x7b' :: rest =>
      match skipBlanks rest with
      | '\x7d' :: rest => some (object [], rest)
      | rest => (fields? fuel rest).map fun (fields, rest) => (object fields, rest)
    | text => number? text

/-- The values of an array up to its closing bracket. -/
def items? : Nat → Text → Option (List Json × Text)
  | 0, _ => none
  | fuel + 1, text => do
    let (item, text) ← value? fuel text
    match skipBlanks text with
    | ',' :: rest =>
      let (items, rest) ← items? fuel rest
      some (item :: items, rest)
    | ']' :: rest => some ([item], rest)
    | _ => none

/-- The fields of an object up to its closing brace. -/
def fields? : Nat → Text → Option (List (Str × Json) × Text)
  | 0, _ => none
  | fuel + 1, text =>
    match skipBlanks text with
    | '"' :: rest => do
      let (name, text) ← string? rest
      match skipBlanks text with
      | ':' :: text =>
        let (value, text) ← value? fuel text
        match skipBlanks text with
        | ',' :: rest =>
          let (fields, rest) ← fields? fuel rest
          some ((name, value) :: fields, rest)
        | '\x7d' :: rest => some ([(name, value)], rest)
        | _ => none
      | _ => none
    | _ => none

end

/-- The value that a text holds, with nothing but white space around it. -/
def read? (text : Text) : Option Json := do
  let (value, rest) ← value? (2 * text.length + 2) text
  if (skipBlanks rest).isEmpty then some value else none

end FilterEditor.Json
