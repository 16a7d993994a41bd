import FilterEditor.Proofs.Word

/-!
# Percent-decoding

Reading percent-encoded texts back: `%` and two hexadecimal digits are one byte, every other character
stands for its own UTF-8 bytes, and the bytes together are the UTF-8 form of a text. Decoding undoes
encoding, and an encoded text holds only characters that mean nothing to a search string.
-/

namespace FilterEditor.Percent

/-- The bytes of an encoded text; none if a percent sign is not followed by two digits. -/
def bytes? : Text → Option (List UInt8)
  | [] => some []
  | c :: rest =>
    if c = '%' then
      match rest with
      | high :: low :: rest =>
        (Hex.number? [high, low]).bind fun n => (bytes? rest).map (UInt8.ofNat n :: ·)
      | _ => none
    else (bytes? rest).map (String.utf8EncodeChar c ++ ·)

/-- The text with that encoded form; none if the bytes are no UTF-8. -/
def decode? (text : Text) : Option Text :=
  (bytes? text).bind fun bytes => bytes.toByteArray.utf8Decode?.map (·.toList)

variable {c : Char} {text rest : Text}

/-! ## Characters -/

lemma isLiteral_iff : isLiteral c ↔ isWordChar c ∨ c = '!' := by
  simp only [isLiteral, isWordChar, Bool.or_eq_true, beq_iff_eq]
  tauto

lemma isBlank_of_isLiteral (h : isLiteral c) : Text.isBlank c = false := by
  rcases isLiteral_iff.mp h with word | rfl
  · exact isBlank_of_isWordChar word
  · rfl

lemma digit_isLiteral : ∀ n < 16, isLiteral (Hex.digit n) := by decide

lemma value_digit : ∀ n < 16, Hex.value? (Hex.digit n) = some n := by decide

lemma number_digits {high low : Nat} (h : high < 16) (l : low < 16) :
    Hex.number? [Hex.digit high, Hex.digit low] = some (16 * high + low) := by
  simp [Hex.number?, value_digit high h, value_digit low l]

lemma digits_lt (b : UInt8) : b.toNat / 16 < 16 ∧ b.toNat % 16 < 16 := by
  have lt := b.toNat_lt
  omega

/-- Encoded texts consist of literal characters and percent signs. -/
lemma chars_encode (text : Text) : ∀ c ∈ encode text, isLiteral c ∨ c = '%' := by
  have byte : ∀ b : UInt8, ∀ c ∈ encodeByte b, isLiteral c ∨ c = '%' := by
    intro b c hc
    obtain ⟨high, low⟩ := digits_lt b
    simp only [encodeByte, List.mem_cons, List.not_mem_nil, or_false] at hc
    rcases hc with rfl | rfl | rfl
    · exact .inr rfl
    · exact .inl (digit_isLiteral _ high)
    · exact .inl (digit_isLiteral _ low)
  intro c hc
  obtain ⟨source, _, hc⟩ := List.mem_flatMap.mp hc
  unfold encodeChar at hc
  split at hc
  · rename_i literal
    cases List.mem_singleton.mp hc
    exact .inl literal
  · obtain ⟨b, _, hc⟩ := List.mem_flatMap.mp hc
    exact byte b c hc

lemma isBlank_of_mem_encode (h : c ∈ encode text) : Text.isBlank c = false := by
  rcases chars_encode text c h with literal | rfl
  · exact isBlank_of_isLiteral literal
  · rfl

lemma encodeChar_ne_nil (c : Char) : encodeChar c ≠ [] := by
  unfold encodeChar
  split
  · nofun
  · intro none
    have empty : ∀ b ∈ String.utf8EncodeChar c, encodeByte b = [] := List.flatMap_eq_nil_iff.mp none
    obtain ⟨b, hb⟩ := List.exists_mem_of_ne_nil _ String.utf8EncodeChar_ne_nil
    exact nomatch empty b hb

lemma encode_ne_nil (h : text ≠ []) : encode text ≠ [] := by
  obtain ⟨c, hc⟩ := List.exists_mem_of_ne_nil _ h
  intro none
  exact encodeChar_ne_nil c (List.flatMap_eq_nil_iff.mp none c hc)

/-! ## Reading back -/

lemma bytes_cons (plain : c ≠ '%') :
    bytes? (c :: rest) = (bytes? rest).map (String.utf8EncodeChar c ++ ·) := by
  rw [bytes?.eq_def]
  exact if_neg plain

lemma bytes_encodeByte (b : UInt8) : bytes? (encodeByte b ++ rest) = (bytes? rest).map (b :: ·) := by
  obtain ⟨high, low⟩ := digits_lt b
  have value : UInt8.ofNat (16 * (b.toNat / 16) + b.toNat % 16) = b := by
    rw [Nat.div_add_mod, UInt8.ofNat_toNat]
  have split : encodeByte b ++ rest =
      '%' :: Hex.digit (b.toNat / 16) :: Hex.digit (b.toNat % 16) :: rest := rfl
  rw [split, bytes?, if_pos rfl, number_digits high low, Option.bind_some, value]

lemma bytes_encodeBytes (bytes : List UInt8) :
    bytes? (bytes.flatMap encodeByte ++ rest) = (bytes? rest).map (bytes ++ ·) := by
  induction bytes with
  | nil => simp
  | cons b bytes ih =>
    rw [List.flatMap_cons, List.append_assoc, bytes_encodeByte, ih, Option.map_map]
    rfl

lemma bytes_encodeChar (c : Char) :
    bytes? (encodeChar c ++ rest) = (bytes? rest).map (String.utf8EncodeChar c ++ ·) := by
  unfold encodeChar
  split
  · rename_i literal
    have percent : c ≠ '%' := by
      rintro rfl
      cases literal
    rw [List.singleton_append, bytes_cons percent]
  · exact bytes_encodeBytes _

lemma bytes_encode (text : Text) : bytes? (encode text) = some (text.flatMap String.utf8EncodeChar) := by
  induction text with
  | nil => rfl
  | cons c rest ih =>
    have split : encode (c :: rest) = encodeChar c ++ encode rest := List.flatMap_cons
    rw [split, bytes_encodeChar, ih]
    rfl

/-- Decoding undoes encoding, whatever the characters of the text. -/
lemma decode_encode (text : Text) : decode? (encode text) = some text := by
  have utf8 : (text.flatMap String.utf8EncodeChar).toByteArray = text.utf8Encode := rfl
  rw [decode?, bytes_encode, Option.bind_some, utf8, List.utf8Decode?_utf8Encode]
  rfl

lemma encode_injective : Function.Injective encode := by
  intro text text' same
  have decoded := congrArg decode? same
  rwa [decode_encode, decode_encode, Option.some.injEq] at decoded

end FilterEditor.Percent
