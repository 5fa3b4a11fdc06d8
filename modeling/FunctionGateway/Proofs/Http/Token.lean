import FunctionGateway.Http.Header

/-!
# Tokens in bytes

The characters of a token are ASCII, so the bytes of a method are its letters one by one.  They
may stand in a field value, and methods that are ordered as texts are ordered as bytes.
-/

namespace FunctionGateway.Http

open FunctionGateway.Text

theorem toNat_of_isTokenChar {letter : Char} (allowed : isTokenChar letter = true) :
    letter.toNat < 128 := by
  have number : letter.toNat = letter.val.toNat := rfl
  rcases Bool.or_eq_true_iff.mp allowed with alphanumeric | special
  · rcases Bool.or_eq_true_iff.mp alphanumeric with alphabetic | digit
    · rcases Bool.or_eq_true_iff.mp alphabetic with upper | lower
      · have most : letter.val.toNat ≤ 90 := (of_decide_eq_true upper).2
        omega
      · have most : letter.val.toNat ≤ 122 := of_decide_eq_true (Bool.and_eq_true_iff.mp lower).2
        omega
    · have most : letter.val.toNat ≤ 57 := of_decide_eq_true (Bool.and_eq_true_iff.mp digit).2
      omega
  · have each : ∀ mark ∈ "!#$%&'*+-.^_\x60|~".toList, mark.toNat < 128 := by simp
    exact each letter (List.contains_iff_mem.mp special)

/-- A token character is one byte, which a field value may hold. -/
theorem isValueByte_of_isTokenChar {letter : Char} (allowed : isTokenChar letter = true) :
    isValueByte letter.toUInt8 = true := by
  have each : ∀ code < 128, isTokenChar (Char.ofNat code) = true →
      isValueByte (Char.ofNat code).toUInt8 = true := by
    decide
  have here := each letter.toNat (toNat_of_isTokenChar allowed)
  rw [Char.ofNat_toNat] at here
  exact here allowed

theorem encodeChar_of_ascii {letter : Char} (small : letter.toNat < 128) :
    String.utf8EncodeChar letter = [letter.toUInt8] := by
  have single : letter.utf8Size = 1 := by
    rw [Char.utf8Size_eq_one_iff, UInt32.le_iff_toNat_le]
    have number : letter.toNat = letter.val.toNat := rfl
    have bound : (127 : UInt32).toNat = 127 := rfl
    omega
  rw [String.utf8EncodeChar_eq_singleton single]
  rfl

namespace Method

theorem isTokenChar_of_mem (method : Method) {letter : Char}
    (member : letter ∈ method.token.toList) : isTokenChar letter = true :=
  List.all_eq_true.mp (Bool.and_eq_true_iff.mp method.isToken).2 letter member

theorem encodeUtf8_token (method : Method) :
    encodeUtf8 method.token = method.token.toList.map Char.toUInt8 := by
  have each : method.token.toList.map String.utf8EncodeChar =
      method.token.toList.map fun letter => [letter.toUInt8] := by
    apply List.map_congr_left
    intro letter member
    exact encodeChar_of_ascii (toNat_of_isTokenChar (method.isTokenChar_of_mem member))
  rw [encodeUtf8, List.flatMap_def, each, ← List.flatMap_def, List.map_eq_flatMap]

theorem isValue_token (method : Method) :
    (encodeUtf8 method.token).all isValueByte = true := by
  rw [encodeUtf8_token, List.all_map, List.all_eq_true]
  intro letter member
  exact isValueByte_of_isTokenChar (method.isTokenChar_of_mem member)

end Method

/-- Letters in ASCII are ordered as their bytes. -/
theorem toUInt8_lt_of_lt {first second : Char} (small : second.toNat < 128)
    (before : first < second) : first.toUInt8 < second.toUInt8 := by
  have less : first.toNat < second.toNat := before
  rw [UInt8.lt_iff_toNat_lt]
  have left : first.toUInt8.toNat = first.toNat % 256 := rfl
  have right : second.toUInt8.toNat = second.toNat % 256 := rfl
  omega

theorem map_toUInt8_lt_of_lt {first second : List Char}
    (small : ∀ letter ∈ second, letter.toNat < 128) (before : first < second) :
    first.map Char.toUInt8 < second.map Char.toUInt8 := by
  induction before with
  | nil => exact List.Lex.nil
  | cons _ inductionHypothesis =>
      exact List.Lex.cons
        (inductionHypothesis fun letter member => small letter (List.mem_cons_of_mem _ member))
  | rel less => exact List.Lex.rel (toUInt8_lt_of_lt (small _ List.mem_cons_self) less)

/-- Methods in the order of their texts are in the order of their bytes. -/
theorem Method.encodeUtf8_lt {first second : Method} (before : first.token < second.token) :
    encodeUtf8 first.token < encodeUtf8 second.token := by
  have letters : first.token.toList < second.token.toList := before
  rw [first.encodeUtf8_token, second.encodeUtf8_token]
  refine map_toUInt8_lt_of_lt ?_ letters
  exact fun letter member => toNat_of_isTokenChar (second.isTokenChar_of_mem member)

end FunctionGateway.Http
