import FunctionGateway.Text.Utf8

/-!
# Dividing the encoding of a text

The encoding of a text may be divided in front of any byte that begins a character, and what
is left behind the encoding of another text is the encoding of a text again.
-/

namespace FunctionGateway.Text

/-- Bytes that encode a text. -/
def IsText (bytes : Bytes) : Prop :=
  ∃ text, encodeUtf8 text = bytes

theorem isText_encode (letters : List Char) : IsText (letters.flatMap String.utf8EncodeChar) :=
  ⟨String.ofList letters, by rw [encodeUtf8, String.toList_ofList]⟩

theorem isText_iff_valid {bytes : Bytes} : IsText bytes ↔ bytes.toByteArray.IsValidUTF8 := by
  constructor
  · rintro ⟨text, rfl⟩
    exact ⟨text.toList, rfl⟩
  · rintro ⟨letters, same⟩
    have equal : bytes = letters.flatMap String.utf8EncodeChar := by
      simpa [List.utf8Encode] using congrArg (fun array => array.data.toList) same
    rw [equal]
    exact isText_encode letters

theorem encodeUtf8_append (first second : String) :
    encodeUtf8 (first ++ second) = encodeUtf8 first ++ encodeUtf8 second := by
  simp only [encodeUtf8, String.toList_append, List.flatMap_append]

theorem encodeUtf8_eq_nil_iff {text : String} : encodeUtf8 text = [] ↔ text = "" := by
  constructor
  · intro empty
    exact @encodeUtf8_injective text "" empty
  · rintro rfl
    rfl

/-- A text is read from its encoding, and from no other bytes. -/
theorem decodeUtf8?_eq_some_iff {bytes : Bytes} {text : String} :
    decodeUtf8? bytes = some text ↔ bytes = encodeUtf8 text := by
  constructor
  · intro read
    by_cases valid : bytes.toByteArray.IsValidUTF8
    · obtain ⟨own, rfl⟩ := isText_iff_valid.mpr valid
      rw [decodeUtf8?_encodeUtf8] at read
      rw [Option.some.inj read]
    · rw [decodeUtf8?, String.fromUTF8?, dif_neg valid] at read
      cases read
  · rintro rfl
    exact decodeUtf8?_encodeUtf8 text

namespace IsText

theorem nil : IsText [] :=
  isText_encode []

theorem append {front rest : Bytes} (first : IsText front) (second : IsText rest) :
    IsText (front ++ rest) := by
  obtain ⟨left, rfl⟩ := first
  obtain ⟨right, rfl⟩ := second
  exact ⟨left ++ right, by simp [encodeUtf8]⟩

private theorem cancel_letters (letters : List Char) {rest : Bytes}
    (whole : IsText (letters.flatMap String.utf8EncodeChar ++ rest)) : IsText rest := by
  induction letters with
  | nil => exact whole
  | cons letter letters inductionHypothesis =>
      refine inductionHypothesis ?_
      rw [isText_iff_valid] at whole ⊢
      refine (@ByteArray.isValidUTF8_utf8Encode_singleton_append_iff _ letter).mp ?_
      simpa [List.utf8Encode] using whole

/-- What is left behind a text is a text. -/
theorem cancel {front rest : Bytes} (first : IsText front) (whole : IsText (front ++ rest)) :
    IsText rest := by
  obtain ⟨text, rfl⟩ := first
  exact cancel_letters text.toList whole

/-- The first byte of a text begins a character. -/
theorem first {byte : UInt8} {rest : Bytes} (whole : IsText (byte :: rest)) :
    byte.IsUTF8FirstByte := by
  rw [isText_iff_valid] at whole
  simpa using whole.isUTF8FirstByte_getElem_zero (by simp)

private theorem split_letters (letters : List Char) {front rest : Bytes} {byte : UInt8}
    (begins : byte.IsUTF8FirstByte)
    (same : letters.flatMap String.utf8EncodeChar = front ++ byte :: rest) : IsText front := by
  induction letters generalizing front with
  | nil => exact absurd same (by simp)
  | cons letter letters inductionHypothesis =>
      rw [List.flatMap_cons, List.append_eq_append_iff] at same
      rcases same with ⟨behind, rfl, same⟩ | ⟨left, same, divided⟩
      · have own : IsText (String.utf8EncodeChar letter) := by
          simpa using isText_encode [letter]
        exact own.append (inductionHypothesis same)
      · cases left with
        | nil =>
            rw [List.append_nil] at same
            rw [← same]
            simpa using isText_encode [letter]
        | cons other more =>
            obtain ⟨rfl, _⟩ := List.cons.inj divided
            have inside : front.length < (String.utf8EncodeChar letter).length := by
              rw [same, List.length_append, List.length_cons]
              omega
            have place : (String.utf8EncodeChar letter)[front.length] = byte := by
              simp only [same]
              simp
            rw [← place, UInt8.isUTF8FirstByte_getElem_utf8EncodeChar] at begins
            rw [List.eq_nil_of_length_eq_zero begins]
            exact nil

/-- A text may be divided in front of a byte that begins a character. -/
theorem split {front rest : Bytes} {byte : UInt8} (begins : byte.IsUTF8FirstByte)
    (whole : IsText (front ++ byte :: rest)) : IsText front ∧ IsText (byte :: rest) := by
  have before : IsText front := by
    obtain ⟨text, same⟩ := whole
    exact split_letters text.toList begins same
  exact ⟨before, before.cancel whole⟩

end IsText

end FunctionGateway.Text
