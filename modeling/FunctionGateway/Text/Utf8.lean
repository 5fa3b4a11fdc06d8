/-!
# Bytes and the text they encode

Bodies, header values and files are byte strings; names, paths and credentials
are text. The two meet in UTF-8: every text has one encoding, and a byte string
either is the encoding of one text or of none.
-/

namespace FunctionGateway.Text

abbrev Bytes := List UInt8

def encodeUtf8 (text : String) : Bytes :=
  text.toList.flatMap String.utf8EncodeChar

/-- The text with this encoding, if there is one. -/
def decodeUtf8? (bytes : Bytes) : Option String :=
  String.fromUTF8? bytes.toByteArray

theorem decodeUtf8?_encodeUtf8 (text : String) : decodeUtf8? (encodeUtf8 text) = some text := by
  have valid : (encodeUtf8 text).toByteArray.IsValidUTF8 := ⟨text.toList, rfl⟩
  simp only [decodeUtf8?, String.fromUTF8?, dif_pos valid]
  refine congrArg some (String.toByteArray_inj.1 ?_)
  have same : (String.ofList text.toList).toByteArray = text.toList.utf8Encode :=
    String.toByteArray_ofList
  rw [String.ofList_toList] at same
  exact same.symm

/-! ## Reading what is no text -/

/-- A byte that goes on with a character. -/
def isContinuation (byte : UInt8) : Bool :=
  0x80 ≤ byte && byte ≤ 0xbf

/-- The first two bytes of a character of two. -/
def opensPair (first second : UInt8) : Bool :=
  0xc2 ≤ first && first ≤ 0xdf && isContinuation second

/-- The first two bytes of a character of three. Neither the spelling of a shorter one
nor a surrogate begins like this. -/
def opensTriple (first second : UInt8) : Bool :=
  0xe0 ≤ first && first ≤ 0xef && isContinuation second &&
    (first != 0xe0 || 0xa0 ≤ second) && (first != 0xed || second ≤ 0x9f)

/-- The first two bytes of a character of four, up to the last code point. -/
def opensQuad (first second : UInt8) : Bool :=
  0xf0 ≤ first && first ≤ 0xf4 && isContinuation second &&
    (first != 0xf0 || 0x90 ≤ second) && (first != 0xf4 || second ≤ 0x8f)

/-- The code point whose leading bits are `lead`, followed by those of continuations. -/
def codeOf (lead : Nat) (continuations : Bytes) : Nat :=
  continuations.foldl (fun code byte => 64 * code + byte.toNat % 64) lead

/-- Stands for bytes that are no character. -/
def replacement : Char := '\ufffd'

/-- Read characters from left to right; a beginning of a character that does not go on
as one is replaced as a whole, any other byte by itself. -/
def lossyLetters : Bytes → List Char
  | [] => []
  | first :: rest =>
      if first < 0x80 then
        Char.ofNat first.toNat :: lossyLetters rest
      else
        match rest with
        | [] => [replacement]
        | second :: behind =>
            if opensPair first second then
              Char.ofNat (codeOf (first.toNat % 32) [second]) :: lossyLetters behind
            else if opensTriple first second then
              match behind with
              | [] => [replacement]
              | third :: more =>
                  if isContinuation third then
                    Char.ofNat (codeOf (first.toNat % 16) [second, third]) :: lossyLetters more
                  else
                    replacement :: lossyLetters (third :: more)
            else if opensQuad first second then
              match behind with
              | [] => [replacement]
              | [third] =>
                  if isContinuation third then [replacement]
                  else replacement :: lossyLetters [third]
              | third :: fourth :: more =>
                  if !isContinuation third then
                    replacement :: lossyLetters (third :: fourth :: more)
                  else if isContinuation fourth then
                    Char.ofNat (codeOf (first.toNat % 8) [second, third, fourth]) ::
                      lossyLetters more
                  else
                    replacement :: lossyLetters (fourth :: more)
            else
              replacement :: lossyLetters (second :: behind)

/-- The text with this encoding; where there is none, what is no character is replaced. -/
def decodeLossy (bytes : Bytes) : String :=
  (decodeUtf8? bytes).getD (String.ofList (lossyLetters bytes))

theorem decodeLossy_encodeUtf8 (text : String) : decodeLossy (encodeUtf8 text) = text := by
  rw [decodeLossy, decodeUtf8?_encodeUtf8]
  rfl

theorem encodeUtf8_injective {first second : String}
    (same : encodeUtf8 first = encodeUtf8 second) : first = second := by
  have read := decodeUtf8?_encodeUtf8 first
  rw [same, decodeUtf8?_encodeUtf8 second] at read
  exact (Option.some.inj read).symm

end FunctionGateway.Text
