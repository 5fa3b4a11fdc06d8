import FunctionGateway.Text.Base64

/-!
# One spelling for every byte string

Reading Base64 and writing it are inverse to each other.  Whatever is read is therefore the
spelling that would be written: no padding may be left out, no bit left over, and no byte
skipped.
-/

namespace FunctionGateway.Text.Base64

/-! ## Letters and their values -/

theorem value?_eq_some_iff {byte : UInt8} {value : Nat} :
    value? byte = some value ↔ value < 64 ∧ byte = letter value := by
  have read : ∀ code < 256, ∀ value ∈ value? (UInt8.ofNat code),
      value < 64 ∧ UInt8.ofNat code = letter value := by
    decide +kernel
  have written : ∀ value < 64, value? (letter value) = some value := by decide
  constructor
  · intro own
    have here := read byte.toNat byte.toNat_lt
    rw [UInt8.ofNat_toNat] at here
    exact here value own
  · rintro ⟨small, rfl⟩
    exact written value small

theorem value?_letter {value : Nat} (small : value < 64) : value? (letter value) = some value :=
  value?_eq_some_iff.mpr ⟨small, rfl⟩

theorem letter_ne_pad {value : Nat} (small : value < 64) : letter value ≠ pad := by
  intro same
  have read := value?_letter small
  rw [same] at read
  exact nomatch read

/-! ## Groups -/

theorem oneByte?_eq_some_iff {first second : UInt8} {bytes : Bytes} :
    oneByte? first second = some bytes ↔
      ∃ byte : UInt8, bytes = [byte] ∧ first = letter (byte.toNat / 4) ∧
        second = letter (byte.toNat % 4 * 16) := by
  constructor
  · intro read
    rw [oneByte?] at read
    split at read
    · rename_i high low readHigh readLow
      obtain ⟨smallHigh, rfl⟩ := value?_eq_some_iff.mp readHigh
      obtain ⟨smallLow, rfl⟩ := value?_eq_some_iff.mp readLow
      split at read
      · rename_i bare
        obtain rfl := Option.some.inj read
        have number : (UInt8.ofNat (high * 4 + low / 16)).toNat = high * 4 + low / 16 :=
          UInt8.toNat_ofNat_of_lt (show high * 4 + low / 16 < 256 by omega)
        refine ⟨_, rfl, ?_, ?_⟩
        · rw [number]
          exact congrArg letter (by omega)
        · rw [number]
          exact congrArg letter (by omega)
      · exact nomatch read
    · exact nomatch read
  · rintro ⟨byte, rfl, rfl, rfl⟩
    have small := byte.toNat_lt
    have high := value?_letter (show byte.toNat / 4 < 64 by omega)
    have low := value?_letter (show byte.toNat % 4 * 16 < 64 by omega)
    have bare : byte.toNat % 4 * 16 % 16 = 0 := by omega
    have whole : byte.toNat / 4 * 4 + byte.toNat % 4 * 16 / 16 = byte.toNat := by omega
    simp only [oneByte?, high, low, bare, if_true, whole, UInt8.ofNat_toNat]

theorem twoBytes?_eq_some_iff {first second third : UInt8} {bytes : Bytes} :
    twoBytes? first second third = some bytes ↔
      ∃ byte next : UInt8, bytes = [byte, next] ∧ first = letter (byte.toNat / 4) ∧
        second = letter (byte.toNat % 4 * 16 + next.toNat / 16) ∧
        third = letter (next.toNat % 16 * 4) := by
  constructor
  · intro read
    rw [twoBytes?] at read
    split at read
    · rename_i high middle low readHigh readMiddle readLow
      obtain ⟨smallHigh, rfl⟩ := value?_eq_some_iff.mp readHigh
      obtain ⟨smallMiddle, rfl⟩ := value?_eq_some_iff.mp readMiddle
      obtain ⟨smallLow, rfl⟩ := value?_eq_some_iff.mp readLow
      split at read
      · rename_i bare
        obtain rfl := Option.some.inj read
        have number : (UInt8.ofNat (high * 4 + middle / 16)).toNat = high * 4 + middle / 16 :=
          UInt8.toNat_ofNat_of_lt (show high * 4 + middle / 16 < 256 by omega)
        have numberNext : (UInt8.ofNat (middle % 16 * 16 + low / 4)).toNat =
            middle % 16 * 16 + low / 4 :=
          UInt8.toNat_ofNat_of_lt (show middle % 16 * 16 + low / 4 < 256 by omega)
        refine ⟨_, _, rfl, ?_, ?_, ?_⟩
        · rw [number]
          exact congrArg letter (by omega)
        · rw [number, numberNext]
          exact congrArg letter (by omega)
        · rw [numberNext]
          exact congrArg letter (by omega)
      · exact nomatch read
    · exact nomatch read
  · rintro ⟨byte, next, rfl, rfl, rfl, rfl⟩
    have small := byte.toNat_lt
    have smallNext := next.toNat_lt
    have high := value?_letter (show byte.toNat / 4 < 64 by omega)
    have middle := value?_letter (show byte.toNat % 4 * 16 + next.toNat / 16 < 64 by omega)
    have low := value?_letter (show next.toNat % 16 * 4 < 64 by omega)
    have bare : next.toNat % 16 * 4 % 4 = 0 := by omega
    have whole : byte.toNat / 4 * 4 + (byte.toNat % 4 * 16 + next.toNat / 16) / 16 =
        byte.toNat := by omega
    have wholeNext : (byte.toNat % 4 * 16 + next.toNat / 16) % 16 * 16 +
        next.toNat % 16 * 4 / 4 = next.toNat := by omega
    simp only [twoBytes?, high, middle, low, bare, if_true, whole, wholeNext, UInt8.ofNat_toNat]

theorem threeBytes?_eq_some_iff {first second third fourth : UInt8} {bytes : Bytes} :
    threeBytes? first second third fourth = some bytes ↔
      ∃ byte next last : UInt8, bytes = [byte, next, last] ∧ first = letter (byte.toNat / 4) ∧
        second = letter (byte.toNat % 4 * 16 + next.toNat / 16) ∧
        third = letter (next.toNat % 16 * 4 + last.toNat / 64) ∧
        fourth = letter (last.toNat % 64) := by
  constructor
  · intro read
    rw [threeBytes?] at read
    split at read
    · rename_i high middle low tail readHigh readMiddle readLow readTail
      obtain ⟨smallHigh, rfl⟩ := value?_eq_some_iff.mp readHigh
      obtain ⟨smallMiddle, rfl⟩ := value?_eq_some_iff.mp readMiddle
      obtain ⟨smallLow, rfl⟩ := value?_eq_some_iff.mp readLow
      obtain ⟨smallTail, rfl⟩ := value?_eq_some_iff.mp readTail
      obtain rfl := Option.some.inj read
      have number : (UInt8.ofNat (high * 4 + middle / 16)).toNat = high * 4 + middle / 16 :=
        UInt8.toNat_ofNat_of_lt (show high * 4 + middle / 16 < 256 by omega)
      have numberNext : (UInt8.ofNat (middle % 16 * 16 + low / 4)).toNat =
          middle % 16 * 16 + low / 4 :=
        UInt8.toNat_ofNat_of_lt (show middle % 16 * 16 + low / 4 < 256 by omega)
      have numberLast : (UInt8.ofNat (low % 4 * 64 + tail)).toNat = low % 4 * 64 + tail :=
        UInt8.toNat_ofNat_of_lt (show low % 4 * 64 + tail < 256 by omega)
      refine ⟨_, _, _, rfl, ?_, ?_, ?_, ?_⟩
      · rw [number]
        exact congrArg letter (by omega)
      · rw [number, numberNext]
        exact congrArg letter (by omega)
      · rw [numberNext, numberLast]
        exact congrArg letter (by omega)
      · rw [numberLast]
        exact congrArg letter (by omega)
    · exact nomatch read
  · rintro ⟨byte, next, last, rfl, rfl, rfl, rfl, rfl⟩
    have small := byte.toNat_lt
    have smallNext := next.toNat_lt
    have smallLast := last.toNat_lt
    have high := value?_letter (show byte.toNat / 4 < 64 by omega)
    have middle := value?_letter (show byte.toNat % 4 * 16 + next.toNat / 16 < 64 by omega)
    have low := value?_letter (show next.toNat % 16 * 4 + last.toNat / 64 < 64 by omega)
    have tail := value?_letter (show last.toNat % 64 < 64 by omega)
    have whole : byte.toNat / 4 * 4 + (byte.toNat % 4 * 16 + next.toNat / 16) / 16 =
        byte.toNat := by omega
    have wholeNext : (byte.toNat % 4 * 16 + next.toNat / 16) % 16 * 16 +
        (next.toNat % 16 * 4 + last.toNat / 64) / 4 = next.toNat := by omega
    have wholeLast : (next.toNat % 16 * 4 + last.toNat / 64) % 4 * 64 + last.toNat % 64 =
        last.toNat := by omega
    simp only [threeBytes?, high, middle, low, tail, whole, wholeNext, wholeLast,
      UInt8.ofNat_toNat]

/-! ## Whole spellings -/

theorem decode?_encode (bytes : Bytes) : decode? (encode bytes) = some bytes := by
  fun_induction encode bytes with
  | case1 => rfl
  | case2 byte =>
      have padded : (([] : Bytes).isEmpty && pad == pad && pad == pad) = true := rfl
      rw [decode?, if_pos padded]
      exact oneByte?_eq_some_iff.mpr ⟨byte, rfl, rfl, rfl⟩
  | case3 byte next =>
      have small := next.toNat_lt
      have unpadded := letter_ne_pad (show next.toNat % 16 * 4 < 64 by omega)
      have padded : (([] : Bytes).isEmpty && pad == pad) = true := rfl
      rw [decode?, if_neg (by simp [unpadded]), if_pos padded]
      exact twoBytes?_eq_some_iff.mpr ⟨byte, next, rfl, rfl, rfl, rfl⟩
  | case4 byte next last rest inductionHypothesis =>
      have unpadded := letter_ne_pad (show last.toNat % 64 < 64 by omega)
      have group := threeBytes?_eq_some_iff.mpr ⟨byte, next, last, rfl, rfl, rfl, rfl, rfl⟩
      rw [decode?, if_neg (by simp [unpadded]), if_neg (by simp [unpadded]), group,
        inductionHypothesis]
      rfl

theorem eq_encode_of_decode? {spelling bytes : Bytes} (read : decode? spelling = some bytes) :
    spelling = encode bytes := by
  fun_induction decode? spelling generalizing bytes with
  | case1 =>
      obtain rfl := Option.some.inj read
      rfl
  | case2 first second third fourth rest padded =>
      obtain ⟨byte, rfl, rfl, rfl⟩ := oneByte?_eq_some_iff.mp read
      simp only [Bool.and_eq_true, List.isEmpty_iff, beq_iff_eq] at padded
      obtain ⟨⟨rfl, rfl⟩, rfl⟩ := padded
      rfl
  | case3 first second third fourth rest _ padded =>
      obtain ⟨byte, next, rfl, rfl, rfl, rfl⟩ := twoBytes?_eq_some_iff.mp read
      simp only [Bool.and_eq_true, List.isEmpty_iff, beq_iff_eq] at padded
      obtain ⟨rfl, rfl⟩ := padded
      rfl
  | case4 first second third fourth rest _ _ group decoded readRest readGroup inductionHypothesis =>
      obtain rfl := Option.some.inj read
      obtain ⟨byte, next, last, rfl, rfl, rfl, rfl, rfl⟩ := threeBytes?_eq_some_iff.mp readGroup
      rw [inductionHypothesis readRest]
      rfl
  | case5 => exact nomatch read
  | case6 => exact nomatch read

/-- Bytes have one spelling, and nothing else is read as a spelling of theirs. -/
theorem decode?_eq_some_iff {spelling bytes : Bytes} :
    decode? spelling = some bytes ↔ spelling = encode bytes := by
  constructor
  · exact eq_encode_of_decode?
  · rintro rfl
    exact decode?_encode bytes

example : encode (encodeUtf8 "admin:pa:ss") = encodeUtf8 "YWRtaW46cGE6c3M=" := by decide

/-! ## What a spelling is made of -/

/-- A spelling holds letters of the alphabet and padding only. -/
theorem mem_encode {byte : UInt8} {bytes : Bytes} (member : byte ∈ encode bytes) :
    byte = pad ∨ ∃ value < 64, byte = letter value := by
  fun_induction encode bytes with
  | case1 => exact absurd member List.not_mem_nil
  | case2 first =>
      have small := first.toNat_lt
      simp only [List.mem_cons, List.not_mem_nil, or_false] at member
      rcases member with rfl | rfl | rfl | rfl
      · exact Or.inr ⟨_, by omega, rfl⟩
      · exact Or.inr ⟨_, by omega, rfl⟩
      · exact Or.inl rfl
      · exact Or.inl rfl
  | case3 first second =>
      have small := first.toNat_lt
      have smallNext := second.toNat_lt
      simp only [List.mem_cons, List.not_mem_nil, or_false] at member
      rcases member with rfl | rfl | rfl | rfl
      · exact Or.inr ⟨_, by omega, rfl⟩
      · exact Or.inr ⟨_, by omega, rfl⟩
      · exact Or.inr ⟨_, by omega, rfl⟩
      · exact Or.inl rfl
  | case4 first second third rest inductionHypothesis =>
      have small := first.toNat_lt
      have smallNext := second.toNat_lt
      have smallLast := third.toNat_lt
      simp only [List.mem_cons] at member
      rcases member with rfl | rfl | rfl | rfl | later
      · exact Or.inr ⟨_, by omega, rfl⟩
      · exact Or.inr ⟨_, by omega, rfl⟩
      · exact Or.inr ⟨_, by omega, rfl⟩
      · exact Or.inr ⟨_, by omega, rfl⟩
      · exact inductionHypothesis later

end FunctionGateway.Text.Base64
