import FunctionGateway.Text.Percent

/-!
# Spellings of a path

A text may be spelled in many ways: each byte of its encoding stands for itself, unless it
would be read as something else, or is escaped, with digits of either case.  Decoding a path
brings back the text it spells, whichever way was chosen for each byte.  What an escape
stands for is not looked at again, so a text that looks like an escape is kept.
-/

namespace FunctionGateway.Text.Percent

/-! ## Digits -/

def lowerDigits : Bytes := encodeUtf8 "0123456789abcdef"

def upperDigits : Bytes := encodeUtf8 "0123456789ABCDEF"

/-- A hexadecimal digit of either case stands for a value. -/
def IsDigit (digit : UInt8) (value : Nat) : Prop :=
  lowerDigits[value]? = some digit ∨ upperDigits[value]? = some digit

/-! ## Spellings -/

/-- A byte that may stand for itself in a path: it opens no escape, and it does not end the
path. -/
def Plain (byte : UInt8) : Prop :=
  byte ≠ 0x25 ∧ byte ≠ 0x3f ∧ byte ≠ 0x23

instance (byte : UInt8) : Decidable (Plain byte) :=
  inferInstanceAs (Decidable (_ ∧ _))

/-- Written bytes spell other bytes: each of these stands for itself or is escaped. -/
inductive Spells : Bytes → Bytes → Prop
  | nil : Spells [] []
  | plain {written meant : Bytes} (byte : UInt8) :
      Plain byte →
      Spells written meant →
      Spells (byte :: written) (byte :: meant)
  | escaped {written meant : Bytes} (byte high low : UInt8) :
      IsDigit high (byte.toNat / 16) →
      IsDigit low (byte.toNat % 16) →
      Spells written meant →
      Spells (0x25 :: high :: low :: written) (byte :: meant)

theorem Spells.append {front behind meant more : Bytes} (first : Spells front meant)
    (second : Spells behind more) : Spells (front ++ behind) (meant ++ more) := by
  induction first with
  | nil => exact second
  | plain byte plain _ inductionHypothesis => exact Spells.plain byte plain inductionHypothesis
  | escaped byte high low first last _ inductionHypothesis =>
      exact Spells.escaped byte high low first last inductionHypothesis

/-! ## Reading a spelling -/

theorem digits_read :
    ∀ digits ∈ [lowerDigits, upperDigits], ∀ value < 16, ∀ digit ∈ digits[value]?,
      digitValue? digit = some (UInt8.ofNat value) ∧ Plain digit := by
  decide +kernel

theorem IsDigit.read {digit : UInt8} {value : Nat} (own : IsDigit digit value)
    (small : value < 16) : digitValue? digit = some (UInt8.ofNat value) ∧ Plain digit := by
  rcases own with lower | upper
  · exact digits_read lowerDigits (by simp) value small digit lower
  · exact digits_read upperDigits (by simp) value small digit upper

theorem pairValue?_of_digits {byte high low : UInt8} (first : IsDigit high (byte.toNat / 16))
    (last : IsDigit low (byte.toNat % 16)) : pairValue? high low = some byte := by
  have bound : byte.toNat < 256 := byte.toNat_lt_size
  rw [pairValue?, (first.read (by omega)).1, (last.read (by omega)).1]
  refine congrArg some (UInt8.toNat_inj.mp ?_)
  simp only [UInt8.toNat_add, UInt8.toNat_mul, UInt8.toNat_ofNat', UInt8.reduceToNat]
  omega

theorem decodeBytes_cons_of_plain {byte : UInt8} (plain : Plain byte) (rest : Bytes) :
    decodeBytes (byte :: rest) = byte :: decodeBytes rest := by
  rw [decodeBytes]
  rintro high low behind rfl
  exact absurd rfl plain.1

/-- Bytes are read back from each of their spellings. -/
theorem Spells.decodeBytes_eq {written meant : Bytes} (spells : Spells written meant) :
    decodeBytes written = meant := by
  induction spells with
  | nil => rfl
  | plain byte plain _ inductionHypothesis =>
      rw [decodeBytes_cons_of_plain plain, inductionHypothesis]
  | escaped byte high low first last _ inductionHypothesis =>
      simp only [decodeBytes, pairValue?_of_digits first last, inductionHypothesis]

/-- A text is read back from each of its spellings. -/
theorem decode_of_spells {path text : String}
    (spells : Spells (encodeUtf8 path) (encodeUtf8 text)) : decode path = text := by
  rw [decode, spells.decodeBytes_eq, decodeUtf8?_encodeUtf8]
  rfl

/-! ## Where a spelled path ends -/

theorem Spells.ne_of_mem {written meant : Bytes} (spells : Spells written meant) :
    ∀ byte ∈ written, byte ≠ 0x3f ∧ byte ≠ 0x23 := by
  induction spells with
  | nil => exact fun byte member => absurd member List.not_mem_nil
  | plain byte plain _ inductionHypothesis =>
      exact List.forall_mem_cons.mpr ⟨plain.2, inductionHypothesis⟩
  | escaped byte high low first last _ inductionHypothesis =>
      have bound : byte.toNat < 256 := byte.toNat_lt_size
      have front := (first.read (by omega)).2.2
      have behind := (last.read (by omega)).2.2
      simp only [List.forall_mem_cons]
      exact ⟨by decide, front, behind, inductionHypothesis⟩

/-- Nothing that is spelled looks like the end of the path. -/
theorem Spells.letter_ne {path : String} {meant : Bytes}
    (spells : Spells (encodeUtf8 path) meant) :
    ∀ letter ∈ path.toList, letter ≠ '?' ∧ letter ≠ '#' := by
  intro letter member
  have shown : ∀ byte ∈ String.utf8EncodeChar letter, byte ≠ 0x3f ∧ byte ≠ 0x23 :=
    fun byte within => spells.ne_of_mem byte (List.mem_flatMap.mpr ⟨letter, member, within⟩)
  constructor
  · rintro rfl
    exact (shown 0x3f (by decide)).1 rfl
  · rintro rfl
    exact (shown 0x23 (by decide)).2 rfl

end FunctionGateway.Text.Percent
