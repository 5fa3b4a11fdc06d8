import FunctionGateway.Text.Utf8

/-!
# Base64

Groups of three bytes are written as four letters of the standard alphabet; a
last group of one or two bytes is padded with `=`. Reading is strict: the
padding has to be there, the bits it leaves over have to be zero, and nothing
outside the alphabet is skipped. So every byte string has exactly one spelling.
-/

namespace FunctionGateway.Text.Base64

/-- The letter for a value below 64. -/
def letter (value : Nat) : UInt8 :=
  if value < 26 then UInt8.ofNat (0x41 + value)
  else if value < 52 then UInt8.ofNat (0x61 + (value - 26))
  else if value < 62 then UInt8.ofNat (0x30 + (value - 52))
  else if value = 62 then 0x2b
  else 0x2f

def value? (letter : UInt8) : Option Nat :=
  if 0x41 ≤ letter ∧ letter ≤ 0x5a then some (letter.toNat - 0x41)
  else if 0x61 ≤ letter ∧ letter ≤ 0x7a then some (letter.toNat - 0x61 + 26)
  else if 0x30 ≤ letter ∧ letter ≤ 0x39 then some (letter.toNat - 0x30 + 52)
  else if letter = 0x2b then some 62
  else if letter = 0x2f then some 63
  else none

def pad : UInt8 := 0x3d

/-- The one spelling of a byte string. -/
def encode : Bytes → Bytes
  | [] => []
  | [first] =>
      [letter (first.toNat / 4), letter (first.toNat % 4 * 16), pad, pad]
  | [first, second] =>
      [letter (first.toNat / 4), letter (first.toNat % 4 * 16 + second.toNat / 16),
        letter (second.toNat % 16 * 4), pad]
  | first :: second :: third :: rest =>
      letter (first.toNat / 4) :: letter (first.toNat % 4 * 16 + second.toNat / 16) ::
        letter (second.toNat % 16 * 4 + third.toNat / 64) :: letter (third.toNat % 64) ::
        encode rest

/-- The single byte of a group padded twice. -/
def oneByte? (first second : UInt8) : Option Bytes :=
  match value? first, value? second with
  | some a, some b => if b % 16 = 0 then some [UInt8.ofNat (a * 4 + b / 16)] else none
  | _, _ => none

/-- The two bytes of a group padded once. -/
def twoBytes? (first second third : UInt8) : Option Bytes :=
  match value? first, value? second, value? third with
  | some a, some b, some c =>
      if c % 4 = 0 then
        some [UInt8.ofNat (a * 4 + b / 16), UInt8.ofNat (b % 16 * 16 + c / 4)]
      else
        none
  | _, _, _ => none

/-- The three bytes of a full group. -/
def threeBytes? (first second third fourth : UInt8) : Option Bytes :=
  match value? first, value? second, value? third, value? fourth with
  | some a, some b, some c, some d =>
      some [UInt8.ofNat (a * 4 + b / 16), UInt8.ofNat (b % 16 * 16 + c / 4),
        UInt8.ofNat (c % 4 * 64 + d)]
  | _, _, _, _ => none

/-- The byte string with this spelling, if it is one. Only the last group may be padded. -/
def decode? : Bytes → Option Bytes
  | [] => some []
  | first :: second :: third :: fourth :: rest =>
      if rest.isEmpty && third == pad && fourth == pad then
        oneByte? first second
      else if rest.isEmpty && fourth == pad then
        twoBytes? first second third
      else
        match threeBytes? first second third fourth, decode? rest with
        | some group, some decoded => some (group ++ decoded)
        | _, _ => none
  | _ :: _ => none

end FunctionGateway.Text.Base64
