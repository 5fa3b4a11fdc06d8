import FunctionGateway.Text.Hidden

/-!
# Quoted text

Text between double quotes, with backslash escapes for the quote, the backslash,
the common controls and NUL; a character that does not show by itself is written
as `\u` and its code point in braces, in lower-case hexadecimal.
-/

namespace FunctionGateway.Text

def hexDigit (value : Nat) : Char :=
  if value < 10 then Char.ofNat (48 + value) else Char.ofNat (87 + value)

/-- Hexadecimal digits without leading zeros; zero is one digit. -/
def hexDigits (value : Nat) : List Char :=
  if value < 16 then [hexDigit value] else hexDigits (value / 16) ++ [hexDigit (value % 16)]

/-- How a character is written inside quotes. -/
def quotedLetter (letter : Char) : List Char :=
  if letter = '\x00' then ['\\', '0']
  else if letter = '\t' then ['\\', 't']
  else if letter = '\r' then ['\\', 'r']
  else if letter = '\n' then ['\\', 'n']
  else if letter = '"' then ['\\', '"']
  else if letter = '\\' then ['\\', '\\']
  else if isHidden letter then ['\\', 'u', '\x7b'] ++ hexDigits letter.toNat ++ ['\x7d']
  else [letter]

def quoted (text : String) : String :=
  "\"" ++ String.ofList (text.toList.flatMap quotedLetter) ++ "\""

end FunctionGateway.Text
