import FunctionGateway.Toml.Table

/-!
# TOML strings and keys

Basic strings have backslash escapes, literal strings have none; both come in a
form of one line and a form of several, in which a line break right behind the
opening quotes does not count and every line break reads as a line feed. Readers
take the text left to read and return a result with the text behind it.
-/

namespace FunctionGateway.Toml

/-- Spaces and tabs; no other character is a blank here. -/
def isBlankChar (letter : Char) : Bool :=
  letter == ' ' || letter == '\t'

def skipBlanks (letters : List Char) : List Char :=
  letters.dropWhile isBlankChar

/-- A character that may stand in a comment, and in a literal string but for its quote. -/
def isPlainChar (letter : Char) : Bool :=
  letter == '\t' || (0x20 ≤ letter.toNat && letter.toNat != 0x7f)

/-- The text behind a line break, if there is one. -/
def lineBreak? : List Char → Option (List Char)
  | '\n' :: rest => some rest
  | '\r' :: '\n' :: rest => some rest
  | _ => none

def skipLineBreak (letters : List Char) : List Char :=
  (lineBreak? letters).getD letters

/-- The character of an escape of one letter. -/
def simpleEscape? : Char → Option Char
  | 'b' => some '\x08'
  | 't' => some '\t'
  | 'n' => some '\n'
  | 'f' => some '\x0c'
  | 'r' => some '\r'
  | '"' => some '"'
  | '\\' => some '\\'
  | _ => none

/-- The value of a digit below `base`, which is at most sixteen. -/
def digitValue? (base : Nat) (letter : Char) : Option Nat :=
  let value :=
    if letter.isDigit then letter.toNat - 48
    else if 'a' ≤ letter ∧ letter ≤ 'f' then letter.toNat - 87
    else if 'A' ≤ letter ∧ letter ≤ 'F' then letter.toNat - 55
    else base
  if value < base then some value else none

/-- The number written by digits of a base. -/
def numberOf? (base : Nat) (digits : List Char) : Option Nat :=
  digits.foldlM (fun total letter => (digitValue? base letter).map (base * total + ·)) 0

/-- The character with a hexadecimal code point; surrogates are none. -/
def codePoint? (digits : List Char) : Option Char :=
  (numberOf? 16 digits).bind fun code =>
    if code.isValidChar then some (Char.ofNat code) else none

/-- What a reader of strings has found: the letters, and the text behind the quotes. -/
abbrev Letters := Option (List Char × List Char)

def Letters.cons (letter : Char) (found : Letters) : Letters :=
  found.map fun (letters, rest) => (letter :: letters, rest)

/-- Read a basic string of one line from behind its opening quote. -/
def basicLetters : List Char → Letters
  | '"' :: rest => some ([], rest)
  | '\\' :: 'u' :: a :: b :: c :: d :: rest =>
      (codePoint? [a, b, c, d]).bind fun letter => (basicLetters rest).cons letter
  | '\\' :: 'U' :: a :: b :: c :: d :: e :: f :: g :: h :: rest =>
      (codePoint? [a, b, c, d, e, f, g, h]).bind fun letter => (basicLetters rest).cons letter
  | '\\' :: mark :: rest =>
      (simpleEscape? mark).bind fun letter => (basicLetters rest).cons letter
  | letter :: rest =>
      if isPlainChar letter && letter != '\\' then (basicLetters rest).cons letter else none
  | [] => none

/-- Read a basic string of several lines from behind its opening quotes. Up to two quotes
may stand before the closing three. While `folding`, blanks and line breaks behind a
backslash at the end of a line are passed over. -/
def multilineBasicLetters : Bool → List Char → Letters
  | folding, '\r' :: '\n' :: rest =>
      if folding then multilineBasicLetters true rest
      else (multilineBasicLetters false rest).cons '\n'
  | folding, '\n' :: rest =>
      if folding then multilineBasicLetters true rest
      else (multilineBasicLetters false rest).cons '\n'
  | _, '"' :: '"' :: '"' :: '"' :: '"' :: '"' :: _ => none
  | _, '"' :: '"' :: '"' :: '"' :: '"' :: rest => some (['"', '"'], rest)
  | _, '"' :: '"' :: '"' :: '"' :: rest => some (['"'], rest)
  | _, '"' :: '"' :: '"' :: rest => some ([], rest)
  | _, '\\' :: 'u' :: a :: b :: c :: d :: rest =>
      (codePoint? [a, b, c, d]).bind fun letter =>
        (multilineBasicLetters false rest).cons letter
  | _, '\\' :: 'U' :: a :: b :: c :: d :: e :: f :: g :: h :: rest =>
      (codePoint? [a, b, c, d, e, f, g, h]).bind fun letter =>
        (multilineBasicLetters false rest).cons letter
  | _, '\\' :: mark :: rest =>
      match simpleEscape? mark with
      | some letter => (multilineBasicLetters false rest).cons letter
      | none =>
          if (lineBreak? (skipBlanks (mark :: rest))).isSome then
            multilineBasicLetters true (mark :: rest)
          else
            none
  | folding, letter :: rest =>
      if folding && isBlankChar letter then multilineBasicLetters true rest
      else if isPlainChar letter && letter != '\\' then
        (multilineBasicLetters false rest).cons letter
      else none
  | _, [] => none

/-- Read a literal string of one line from behind its opening quote. -/
def literalLetters : List Char → Letters
  | '\'' :: rest => some ([], rest)
  | letter :: rest =>
      if isPlainChar letter then (literalLetters rest).cons letter else none
  | [] => none

/-- Read a literal string of several lines from behind its opening quotes. -/
def multilineLiteralLetters : List Char → Letters
  | '\r' :: '\n' :: rest => (multilineLiteralLetters rest).cons '\n'
  | '\n' :: rest => (multilineLiteralLetters rest).cons '\n'
  | '\'' :: '\'' :: '\'' :: '\'' :: '\'' :: '\'' :: _ => none
  | '\'' :: '\'' :: '\'' :: '\'' :: '\'' :: rest => some (['\'', '\''], rest)
  | '\'' :: '\'' :: '\'' :: '\'' :: rest => some (['\''], rest)
  | '\'' :: '\'' :: '\'' :: rest => some ([], rest)
  | letter :: rest =>
      if isPlainChar letter then (multilineLiteralLetters rest).cons letter else none
  | [] => none

def readString : List Char → Letters
  | '"' :: '"' :: '"' :: rest => multilineBasicLetters false (skipLineBreak rest)
  | '"' :: rest => basicLetters rest
  | '\'' :: '\'' :: '\'' :: rest => multilineLiteralLetters (skipLineBreak rest)
  | '\'' :: rest => literalLetters rest
  | _ => none

/-! ## Keys -/

/-- A character of a key written without quotes. -/
def isBareChar (letter : Char) : Bool :=
  letter.isAlphanum || letter == '_' || letter == '-'

/-- Read one part of a key: bare, or a quoted string of one line. -/
def readKeyPart : List Char → Option (Key × List Char)
  | [] => none
  | first :: rest =>
      let found : Letters :=
        if first = '"' then basicLetters rest
        else if first = '\'' then literalLetters rest
        else if isBareChar first then
          some ((first :: rest).takeWhile isBareChar, (first :: rest).dropWhile isBareChar)
        else none
      found.map fun (letters, left) =>
        (⟨String.ofList letters, ⟨rest.length + 1, left.length⟩⟩, left)

/-- Read the parts of a dotted key with the blanks round them; `fuel` bounds their number. -/
def readKeyParts : Nat → List Char → Option (List Key × List Char)
  | 0, _ => none
  | fuel + 1, letters =>
      match readKeyPart (skipBlanks letters) with
      | none => none
      | some (key, left) =>
          match skipBlanks left with
          | '.' :: rest => (readKeyParts fuel rest).map fun (keys, behind) => (key :: keys, behind)
          | rest => some ([key], rest)

/-- A dotted key has fewer parts than this. -/
def keyDepthLimit : Nat := 80

/-- Read a dotted key, as the path and the last part. -/
def readKey (letters : List Char) : Option (List Key × Key × List Char) :=
  match readKeyParts (keyDepthLimit - 1) letters with
  | none => none
  | some (keys, left) => keys.getLast?.map fun last => (keys.dropLast, last, left)

end FunctionGateway.Toml
