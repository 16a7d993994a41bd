import FilterEditor.Proofs.Percent
import Mathlib.Data.List.Basic

/-!
# Escaping

A search is escaped in two steps. First every byte of its UTF-8 form that is no letter, no digit and
none of `- _ . ~` is written as an escape. Then the escapes of three marks, `!`, `*` and `'`, are
replaced by the marks, as texts. In a text of whole escapes a percent sign begins an escape and nothing
else, so what is replaced are whole escapes too (`replaceAll_encodeBytes`), and the two steps together
are the encoding character by character (`encode_eq_replaced`).
-/

namespace FilterEditor

namespace Text

/-- Goes through a text and replaces every `mark`; the first `skip` characters belong to a mark that is
replaced already. -/
def replaceFrom (mark value : Text) : Nat → Text → Text
  | _, [] => []
  | skip + 1, _ :: rest => replaceFrom mark value skip rest
  | 0, c :: rest =>
    if mark <+: c :: rest then value ++ replaceFrom mark value (mark.length - 1) rest
    else c :: replaceFrom mark value 0 rest

/-- The text with every `mark`, looked for from the left, replaced by `value`. -/
def replaceAll (mark value text : Text) : Text := replaceFrom mark value 0 text

variable {mark value rest : Text} {c : Char}

lemma replaceFrom_eq (skip : Nat) (text : Text) :
    replaceFrom mark value skip text = replaceAll mark value (text.drop skip) := by
  induction text generalizing skip with
  | nil =>
    rw [List.drop_nil]
    cases skip <;> rfl
  | cons c rest ih =>
    cases skip with
    | zero => rfl
    | succ skip => exact ih skip

/-- A mark at the front is replaced, and the search goes on behind it. -/
lemma replaceAll_mark (nonempty : mark ≠ []) :
    replaceAll mark value (mark ++ rest) = value ++ replaceAll mark value rest := by
  obtain ⟨first, more, rfl⟩ := List.exists_cons_of_ne_nil nonempty
  have front : first :: more <+: first :: (more ++ rest) := List.prefix_append _ _
  have behind : (more ++ rest).drop ((first :: more).length - 1) = rest := List.drop_left
  rw [List.cons_append, replaceAll, replaceFrom, if_pos front, replaceFrom_eq, behind]

/-- Where no mark begins, a character stays. -/
lemma replaceAll_other (other : ¬ mark <+: c :: rest) :
    replaceAll mark value (c :: rest) = c :: replaceAll mark value rest := by
  rw [replaceAll, replaceFrom, if_neg other]
  rfl

/-- The search is from the left: what a replaced mark took cannot begin another. -/
example : replaceAll "%21".toList ['!'] "a%21%2%21%212".toList = "a!%2!!2".toList := by decide

end Text

namespace Percent

/-- Whether a byte is an ASCII letter, a digit or one of `- _ . ~`. -/
def isUnreserved (b : UInt8) : Bool :=
  let c := Char.ofNat b.toNat
  c.isAlphanum || c == '-' || c == '_' || c == '.' || c == '~'

/-- Bytes as a text: those to be kept as ASCII characters, every other as an escape. -/
def encodeBytes (kept : UInt8 → Bool) (bytes : List UInt8) : Text :=
  bytes.flatMap fun b => if kept b then [Char.ofNat b.toNat] else encodeByte b

/-- A text with every byte of its UTF-8 form escaped, but for letters, digits and `- _ . ~`. -/
def encodeReserved (text : Text) : Text :=
  encodeBytes isUnreserved (text.flatMap String.utf8EncodeChar)

/-- The upper-case hexadecimal digits. -/
def upperDigits : Text := "0123456789ABCDEF"

/-- A text of literal characters and of percent signs with two upper-case hexadecimal digits each. -/
inductive Escaped : Text → Prop
  | nil : Escaped []
  | literal {c : Char} {rest : Text} (literal : isLiteral c) : Escaped rest → Escaped (c :: rest)
  | escape {high low : Char} {rest : Text} (first : high ∈ upperDigits) (second : low ∈ upperDigits) :
      Escaped rest → Escaped ('%' :: high :: low :: rest)

variable {kept : UInt8 → Bool} {b mark : UInt8} {c : Char} {rest text : Text} {bytes : List UInt8}

/-! ## Literal bytes -/

/-- Whether a byte is a literal character. -/
def isLiteralByte (b : UInt8) : Bool := isLiteral (Char.ofNat b.toNat)

lemma literalByte_lt (h : isLiteralByte b) : b.toNat < 128 := by
  have all : ∀ n < 256, isLiteral (Char.ofNat n) → n < 128 := by decide +kernel
  exact all b.toNat b.toNat_lt h

/-- The literal bytes are the unreserved ones and three marks. -/
lemma isLiteralByte_eq (b : UInt8) :
    isLiteralByte b = (((isUnreserved b || b == 0x21) || b == 0x2A) || b == 0x27) := by
  have all : ∀ n < 256, isLiteralByte (UInt8.ofNat n) =
      (((isUnreserved (UInt8.ofNat n) || UInt8.ofNat n == 0x21) || UInt8.ofNat n == 0x2A) ||
        UInt8.ofNat n == 0x27) := by
    decide +kernel
  simpa only [UInt8.ofNat_toNat] using all b.toNat b.toNat_lt

lemma ne_percent (h : b ≠ 0x25) : Char.ofNat b.toNat ≠ '%' := by
  intro percent
  have all : ∀ n < 256, Char.ofNat n = '%' → n = 0x25 := by decide +kernel
  exact h (UInt8.toNat_inj.mp (all b.toNat b.toNat_lt percent))

/-! ## Escapes -/

lemma encodeByte_injective : Function.Injective encodeByte := by
  intro b b' same
  have read : ∀ b : UInt8, bytes? (encodeByte b) = some [b] := fun b => by
    have read : bytes? (encodeByte b ++ []) = (bytes? []).map (b :: ·) := bytes_encodeByte b
    rwa [List.append_nil] at read
  have bytes := (read b).symm.trans ((congrArg bytes? same).trans (read b'))
  exact (List.cons.inj (Option.some.inj bytes)).1

/-- An escape begins with another just if the bytes are the same. -/
lemma encodeByte_prefix_iff : encodeByte mark <+: encodeByte b ++ rest ↔ mark = b := by
  constructor
  · intro front
    have same : encodeByte mark = encodeByte b :=
      (List.prefix_of_prefix_length_le front (List.prefix_append _ _) le_rfl).eq_of_length rfl
    exact encodeByte_injective same
  · rintro rfl
    exact List.prefix_append _ _

/-- An escape begins with its percent sign. -/
lemma not_prefix_of_ne_percent (other : c ≠ '%') : ¬ encodeByte mark <+: c :: rest := by
  intro front
  exact other (List.cons_prefix_cons.mp front).1.symm

lemma digit_ne_percent {n : Nat} (h : n < 16) : Hex.digit n ≠ '%' := by
  intro percent
  have literal := digit_isLiteral n h
  rw [percent] at literal
  cases literal

/-- Replacing an escape in an escape of another byte does nothing: neither of its digits is a percent
sign. -/
lemma replaceAll_encodeByte (value : Text) (other : mark ≠ b) :
    Text.replaceAll (encodeByte mark) value (encodeByte b ++ rest) =
      encodeByte b ++ Text.replaceAll (encodeByte mark) value rest := by
  obtain ⟨high, low⟩ := digits_lt b
  have spelled : encodeByte b ++ rest =
      '%' :: Hex.digit (b.toNat / 16) :: Hex.digit (b.toNat % 16) :: rest := rfl
  have first : ¬ encodeByte mark <+: encodeByte b ++ rest :=
    fun front => other (encodeByte_prefix_iff.mp front)
  rw [spelled] at first ⊢
  rw [Text.replaceAll_other first,
    Text.replaceAll_other (not_prefix_of_ne_percent (digit_ne_percent high)),
    Text.replaceAll_other (not_prefix_of_ne_percent (digit_ne_percent low))]
  rfl

/-- Replacing the escapes of a byte in a text of kept bytes and escapes comes to keeping that byte. -/
lemma replaceAll_encodeBytes (percent : kept 0x25 = false) (bytes : List UInt8) (mark : UInt8) :
    Text.replaceAll (encodeByte mark) [Char.ofNat mark.toNat] (encodeBytes kept bytes) =
      encodeBytes (fun b => kept b || b == mark) bytes := by
  induction bytes with
  | nil => rfl
  | cons b bytes ih =>
    have split (kept : UInt8 → Bool) : encodeBytes kept (b :: bytes) =
        (if kept b then [Char.ofNat b.toNat] else encodeByte b) ++ encodeBytes kept bytes :=
      List.flatMap_cons
    rw [split, split, ← ih]
    by_cases keep : kept b
    · have other : b ≠ 0x25 := by
        rintro rfl
        cases percent.symm.trans keep
      rw [if_pos keep, if_pos (by rw [keep, Bool.true_or])]
      exact Text.replaceAll_other (not_prefix_of_ne_percent (ne_percent other))
    · rw [if_neg keep]
      by_cases same : b = mark
      · rw [if_pos (by rw [beq_iff_eq.mpr same, Bool.or_true]), same]
        exact Text.replaceAll_mark nofun
      · rw [if_neg (by simp [keep, same])]
        exact replaceAll_encodeByte _ (Ne.symm same)

/-! ## Characters -/

lemma toNat_of_isLiteral (h : isLiteral c) : c.toNat ≤ 127 := by
  rcases isLiteral_iff.mp h with word | rfl
  · exact Nat.le_succ_of_le (toNat_of_isWordChar word).2
  · decide

/-- Beyond ASCII, every byte of a character is beyond ASCII. -/
lemma le_of_mem_utf8EncodeChar (beyond : ¬ c.val.toNat ≤ 127) (mem : b ∈ String.utf8EncodeChar c) :
    128 ≤ b.toNat := by
  rw [String.utf8EncodeChar, if_neg beyond] at mem
  have size : c.val.toNat < 1114112 := by
    rcases c.valid with lt | ⟨_, lt⟩ <;> omega
  split at mem
  · simp only [List.mem_cons, List.not_mem_nil, or_false] at mem
    rcases mem with rfl | rfl <;> rw [UInt8.toNat_ofNat'] <;> omega
  · split at mem
    · simp only [List.mem_cons, List.not_mem_nil, or_false] at mem
      rcases mem with rfl | rfl | rfl <;> rw [UInt8.toNat_ofNat'] <;> omega
    · simp only [List.mem_cons, List.not_mem_nil, or_false] at mem
      rcases mem with rfl | rfl | rfl | rfl <;> rw [UInt8.toNat_ofNat'] <;> omega

/-- A character is written as it is just if its only byte is a literal one. -/
lemma encodeChar_eq (c : Char) :
    encodeChar c = encodeBytes isLiteralByte (String.utf8EncodeChar c) := by
  by_cases ascii : c.val.toNat ≤ 127
  · have bytes : String.utf8EncodeChar c = [UInt8.ofNat c.toNat] := by
      rw [String.utf8EncodeChar, if_pos ascii]
      rfl
    have lt : c.toNat < UInt8.size := lt_of_le_of_lt ascii (by decide)
    have back : Char.ofNat (UInt8.ofNat c.toNat).toNat = c := by
      rw [UInt8.toNat_ofNat_of_lt' lt, Char.ofNat_toNat]
    have literal : isLiteralByte (UInt8.ofNat c.toNat) = isLiteral c := by rw [isLiteralByte, back]
    rw [encodeChar, bytes, encodeBytes, List.flatMap_singleton, List.flatMap_singleton, literal, back]
  · have other : ¬ isLiteral c := fun literal => ascii (toNat_of_isLiteral literal)
    have escaped : ∀ b ∈ String.utf8EncodeChar c, ¬ isLiteralByte b := by
      intro b mem literal
      have lt := literalByte_lt literal
      have le := le_of_mem_utf8EncodeChar ascii mem
      omega
    rw [encodeChar, if_neg other, encodeBytes]
    exact List.flatMap_congr fun b mem => (if_neg (escaped b mem)).symm

/-! ## Texts -/

/-- Encoding character by character comes to escaping every reserved byte and replacing the escapes of
three marks by the marks. -/
lemma encode_eq_replaced (text : Text) :
    encode text =
      Text.replaceAll "%27".toList ['\'']
        (Text.replaceAll "%2A".toList ['*']
          (Text.replaceAll "%21".toList ['!'] (encodeReserved text))) := by
  let bytes := text.flatMap String.utf8EncodeChar
  have bytewise : encode text = encodeBytes isLiteralByte bytes := by
    rw [encode, encodeBytes, List.flatMap_assoc]
    exact List.flatMap_congr fun c _ => encodeChar_eq c
  -- Each replacement lets one more byte stand for itself.
  have first : Text.replaceAll "%21".toList ['!'] (encodeReserved text) =
      encodeBytes (fun b => isUnreserved b || b == 0x21) bytes :=
    replaceAll_encodeBytes rfl bytes 0x21
  have second : Text.replaceAll "%2A".toList ['*']
      (encodeBytes (fun b => isUnreserved b || b == 0x21) bytes) =
        encodeBytes (fun b => (isUnreserved b || b == 0x21) || b == 0x2A) bytes :=
    replaceAll_encodeBytes rfl bytes 0x2A
  have third : Text.replaceAll "%27".toList ['\'']
      (encodeBytes (fun b => (isUnreserved b || b == 0x21) || b == 0x2A) bytes) =
        encodeBytes (fun b => ((isUnreserved b || b == 0x21) || b == 0x2A) || b == 0x27) bytes :=
    replaceAll_encodeBytes rfl bytes 0x27
  rw [first, second, third, bytewise, funext isLiteralByte_eq]

lemma Escaped.append (first : Escaped text) (second : Escaped rest) : Escaped (text ++ rest) := by
  induction first with
  | nil => exact second
  | literal literal _ ih => exact .literal literal ih
  | escape high low _ ih => exact .escape high low ih

lemma digit_mem_upperDigits : ∀ n < 16, Hex.digit n ∈ upperDigits := by decide

lemma escaped_encodeChar (c : Char) : Escaped (encodeChar c) := by
  have byte (b : UInt8) : Escaped (encodeByte b) := by
    obtain ⟨high, low⟩ := digits_lt b
    exact .escape (digit_mem_upperDigits _ high) (digit_mem_upperDigits _ low) .nil
  unfold encodeChar
  split
  · rename_i literal
    exact .literal literal .nil
  · induction String.utf8EncodeChar c with
    | nil => exact .nil
    | cons b bytes ih => exact (byte b).append ih

lemma escaped_encode (text : Text) : Escaped (encode text) := by
  induction text with
  | nil => exact .nil
  | cons c rest ih => exact (escaped_encodeChar c).append ih

/-- Escaping is what the three replacements make of a text whose reserved bytes are escaped; it leaves
nothing but literal characters and whole escapes, decoding undoes it, and so no two texts are escaped
alike. -/
theorem escaping_reversible :
    (∀ text,
      encode text =
          Text.replaceAll "%27".toList ['\'']
            (Text.replaceAll "%2A".toList ['*']
              (Text.replaceAll "%21".toList ['!'] (encodeReserved text))) ∧
        Escaped (encode text) ∧ decode? (encode text) = some text) ∧
      Function.Injective encode :=
  ⟨fun text => ⟨encode_eq_replaced text, escaped_encode text, decode_encode text⟩,
    encode_injective⟩

/-- Percent signs, digits of escapes and characters of several bytes. -/
example : encode "%21!2A(é)".toList = "%2521!2A%28%C3%A9%29".toList := by decide

end Percent
end FilterEditor
