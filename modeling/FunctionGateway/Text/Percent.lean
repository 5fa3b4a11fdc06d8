import FunctionGateway.Text.Utf8

/-!
# Percent-encoded paths

`%` followed by two hexadecimal digits of either case stands for a byte; any
other `%` stands for itself. Decoding is done once, on bytes. A path whose
decoded bytes are not UTF-8 is left exactly as it was received.
-/

namespace FunctionGateway.Text.Percent

def digitValue? (digit : UInt8) : Option UInt8 :=
  if 0x30 ≤ digit ∧ digit ≤ 0x39 then some (digit - 0x30)
  else if 0x41 ≤ digit ∧ digit ≤ 0x46 then some (digit - 0x41 + 10)
  else if 0x61 ≤ digit ∧ digit ≤ 0x66 then some (digit - 0x61 + 10)
  else none

/-- The byte two hexadecimal digits stand for. -/
def pairValue? (high low : UInt8) : Option UInt8 :=
  match digitValue? high, digitValue? low with
  | some first, some second => some (16 * first + second)
  | _, _ => none

/-- Replace each escape by its byte, from left to right. -/
def decodeBytes : Bytes → Bytes
  | 0x25 :: high :: low :: rest =>
      match pairValue? high low with
      | some byte => byte :: decodeBytes rest
      | none => 0x25 :: decodeBytes (high :: low :: rest)
  | byte :: rest => byte :: decodeBytes rest
  | [] => []

/-- The decoded path, or the path itself where the decoded bytes are no text. -/
def decode (path : String) : String :=
  (decodeUtf8? (decodeBytes (encodeUtf8 path))).getD path

end FunctionGateway.Text.Percent
