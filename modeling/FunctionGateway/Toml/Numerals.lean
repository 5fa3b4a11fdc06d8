import FunctionGateway.Toml.Strings

/-!
# TOML numbers, booleans and dates

A number, a boolean or a date is one word: a run of characters none of which may
stand right behind a value. So a word is read first and then recognised as a
whole, except that a date may be followed by one space and a time. Underscores may
stand singly between digits. Integers have 64 bits; a decimal too large for the
binary format is refused, unless it is negative.
-/

namespace FunctionGateway.Toml

open FunctionGateway.Number

def isWordChar (letter : Char) : Bool :=
  letter.isAlphanum || letter == '_' || letter == '+' || letter == '-' || letter == '.' ||
    letter == ':'

/-- Drop the underscores of a run of digits; each has to stand between two digits. -/
def digitRun? (isDigit : Char → Bool) : List Char → Option (List Char)
  | [] => none
  | [last] => if isDigit last then some [last] else none
  | first :: '_' :: rest =>
      if isDigit first then (digitRun? isDigit rest).map (first :: ·) else none
  | first :: rest =>
      if isDigit first then (digitRun? isDigit rest).map (first :: ·) else none

/-- A run of decimal digits without a leading zero, unless it is zero. -/
def wholeRun? (letters : List Char) : Option (List Char) :=
  match letters with
  | ['0'] => some ['0']
  | '0' :: _ => none
  | _ => digitRun? Char.isDigit letters

/-- A sign in front of a word: whether it is negative, and the rest. -/
def splitSign : List Char → Bool × List Char
  | '-' :: rest => (true, rest)
  | '+' :: rest => (false, rest)
  | letters => (false, letters)

/-- An integer within 64 bits. -/
def integer? (negative : Bool) (magnitude : Nat) : Option Value :=
  let value : Int := if negative then -(magnitude : Int) else magnitude
  let limit : Int := Nat.pow 2 63
  if -limit ≤ value ∧ value < limit then some (.integer value) else none

/-- An integer of another base; such integers have no sign. -/
def basedInteger? (base : Nat) (letters : List Char) : Option Value :=
  (digitRun? (fun letter => (digitValue? base letter).isSome) letters).bind fun digits =>
    (numberOf? base digits).bind (integer? false)

def decimalInteger? (word : List Char) : Option Value :=
  let (negative, letters) := splitSign word
  (wholeRun? letters).bind fun digits => (numberOf? 10 digits).bind (integer? negative)

/-- The power of ten behind the letter `e`. -/
def exponent? (letters : List Char) : Option Int :=
  let (negative, digits) := splitSign letters
  (digitRun? Char.isDigit digits).bind fun run =>
    (numberOf? 10 run).map fun value => if negative then -(value : Int) else value

/-- A decimal with a fraction, an exponent, or both. -/
def decimalFloat? (word : List Char) : Option Value :=
  let (negative, letters) := splitSign word
  let isMark (letter : Char) : Bool := letter == 'e' || letter == 'E'
  let mantissa := letters.takeWhile (!isMark ·)
  let whole := mantissa.takeWhile (· != '.')
  let fraction : Option (List Char) :=
    match mantissa.dropWhile (· != '.') with
    | [] => some []
    | _ :: digits => digitRun? Char.isDigit digits
  let power : Option Int :=
    match letters.dropWhile (!isMark ·) with
    | [] => some 0
    | _ :: rest => exponent? rest
  if whole.length = letters.length then
    none
  else
    match wholeRun? whole, fraction, power with
    | some front, some behind, some shift =>
        (numberOf? 10 (front ++ behind)).bind fun digits =>
          match Binary64.ofDecimal negative digits (shift - behind.length) with
          | .infinite false => none
          | value => some (.float value)
    | _, _, _ => none

/-- The words for what has no digits. -/
def namedFloat? (word : List Char) : Option Value :=
  let (negative, letters) := splitSign word
  if letters = ['i', 'n', 'f'] then some (.float (.infinite negative))
  else if letters = ['n', 'a', 'n'] then some (.float .notANumber)
  else none

/-! ## Dates and times -/

/-- A number of `count` decimal digits within bounds, and the text behind it. -/
def boundedDigits? (count low high : Nat) (letters : List Char) : Option (Nat × List Char) :=
  let digits := letters.take count
  if digits.length = count && digits.all Char.isDigit then
    (numberOf? 10 digits).bind fun value =>
      if low ≤ value ∧ value ≤ high then some (value, letters.drop count) else none
  else
    none

/-- The text behind a character that has to come next. -/
def expect? (mark : Char) : List Char → Option (List Char)
  | first :: rest => if first = mark then some rest else none
  | [] => none

/-- Days of a month, in leap years one more in February. -/
def daysOf (year month : Nat) : Nat :=
  let leap := year % 4 = 0 ∧ (year % 100 ≠ 0 ∨ year % 400 = 0)
  if month = 2 then (if leap then 29 else 28)
  else if month = 4 ∨ month = 6 ∨ month = 9 ∨ month = 11 then 30
  else 31

/-- The text behind a date that exists. -/
def date? (letters : List Char) : Option (List Char) := do
  let (year, rest) ← boundedDigits? 4 0 9999 letters
  let (month, rest) ← boundedDigits? 2 1 12 (← expect? '-' rest)
  let (_, rest) ← boundedDigits? 2 1 (daysOf year month) (← expect? '-' rest)
  return rest

/-- The text behind a time of day; a minute may have a leap second. -/
def time? (letters : List Char) : Option (List Char) := do
  let (_, rest) ← boundedDigits? 2 0 23 letters
  let (_, rest) ← boundedDigits? 2 0 59 (← expect? ':' rest)
  let (_, rest) ← boundedDigits? 2 0 60 (← expect? ':' rest)
  match rest with
  | '.' :: fraction =>
      let behind := fraction.dropWhile Char.isDigit
      if behind.length < fraction.length then some behind else none
  | _ => some rest

/-- Whether a text is nothing or an offset from universal time. -/
def isOffset (letters : List Char) : Bool :=
  match letters with
  | [] => true
  | ['Z'] => true
  | ['z'] => true
  | sign :: rest =>
      let clock := do
        let (_, minutes) ← boundedDigits? 2 0 23 rest
        let (_, behind) ← boundedDigits? 2 0 59 (← expect? ':' minutes)
        return behind
      (sign == '+' || sign == '-') && clock == some []

/-- A time of day with or without an offset. -/
def isOffsetTime (letters : List Char) : Bool :=
  match time? letters with
  | some rest => isOffset rest
  | none => false

/-- Whether a word is a date, a date and a time joined by `T`, or a time. -/
def isDateTime (word : List Char) : Bool :=
  match date? word with
  | some [] => true
  | some (mark :: rest) => (mark == 'T' || mark == 't') && isOffsetTime rest
  | none => time? word == some []

/-! ## Words -/

def wordValue? (word : List Char) : Option Value :=
  match word with
  | ['t', 'r', 'u', 'e'] => some (.boolean true)
  | ['f', 'a', 'l', 's', 'e'] => some (.boolean false)
  | '0' :: 'x' :: digits => basedInteger? 16 digits
  | '0' :: 'o' :: digits => basedInteger? 8 digits
  | '0' :: 'b' :: digits => basedInteger? 2 digits
  | _ =>
      if isDateTime word then some .dateTime
      else (namedFloat? word <|> decimalInteger? word) <|> decimalFloat? word

/-- Read a word as a value. A date followed by a space and a digit goes on with a time. -/
def readWord (letters : List Char) : Option (Value × List Char) :=
  let word := letters.takeWhile isWordChar
  let rest := letters.dropWhile isWordChar
  match date? word, rest with
  | some [], ' ' :: digit :: behind =>
      if digit.isDigit then
        let time := (digit :: behind).takeWhile isWordChar
        if isOffsetTime time then some (.dateTime, (digit :: behind).dropWhile isWordChar)
        else none
      else
        some (.dateTime, rest)
  | _, _ => (wordValue? word).map (·, rest)

end FunctionGateway.Toml
