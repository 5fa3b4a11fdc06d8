/-!
# Blanks

The characters with the Unicode property `White_Space`, and trimming them.
-/

namespace FunctionGateway.Text

/-- The `White_Space` characters beyond those of ASCII. -/
def wideBlanks : List Nat :=
  [0x85, 0xa0, 0x1680, 0x2000, 0x2001, 0x2002, 0x2003, 0x2004, 0x2005, 0x2006, 0x2007, 0x2008,
    0x2009, 0x200a, 0x2028, 0x2029, 0x202f, 0x205f, 0x3000]

/-- Tab, the line controls up to carriage return, space, and the wide blanks. -/
def isBlank (letter : Char) : Bool :=
  letter == ' ' || (9 ≤ letter.toNat && letter.toNat ≤ 13) || wideBlanks.contains letter.toNat

def trim (text : String) : String :=
  String.ofList ((text.toList.dropWhile isBlank).reverse.dropWhile isBlank).reverse

end FunctionGateway.Text
