import FunctionGateway.Time

/-!
# Binary floating point numbers of 64 bits

A finite number is a sign, a mantissa below 2 ^ 53 and a binary exponent of at
least -1074; numbers are normalised so that the mantissa has 53 bits unless the
exponent is the least one. All arithmetic is exact arithmetic on natural
numbers: rounding a quotient to the nearest number, ties to the even mantissa,
and finding the shortest decimal digits that are read back as the same number.
-/

namespace FunctionGateway.Number

/-- Half of the divisor decides the rounding of a quotient; a tie goes to the even one. -/
def roundDiv (dividend divisor : Nat) : Nat :=
  let quotient := dividend / divisor
  let twice := 2 * (dividend % divisor)
  if divisor < twice ∨ (twice = divisor ∧ quotient % 2 = 1) then quotient + 1 else quotient

inductive Binary64 where
  | notANumber
  | infinite (negative : Bool)
  | finite (negative : Bool) (mantissa : Nat) (exponent : Int)
deriving DecidableEq

namespace Binary64

def leastExponent : Int := -1074

def greatestExponent : Int := 971

/-- `base ^ exponent` as a fraction of natural numbers. -/
def scale (base : Nat) (exponent : Int) : Nat × Nat :=
  if 0 ≤ exponent then (base.pow exponent.toNat, 1) else (1, base.pow (-exponent).toNat)

/-- The exponent a positive quotient gets: 53 bits in front of it, but never below the
least exponent. -/
def exponentFor (dividend divisor : Nat) : Int :=
  let bits : Int := (dividend.log2 : Int) - divisor.log2
  let (up, down) := scale 2 bits
  let exact := if divisor * up ≤ dividend * down then bits else bits - 1
  max (exact - 52) leastExponent

/-- The number nearest to a quotient, with a sign; a quotient that is too large is infinite. -/
def ofQuotient (negative : Bool) (dividend divisor : Nat) : Binary64 :=
  if dividend = 0 then
    finite negative 0 leastExponent
  else
    let exponent := exponentFor dividend divisor
    let (up, down) := scale 2 exponent
    let mantissa := roundDiv (dividend * down) (divisor * up)
    let carried := mantissa = Nat.pow 2 53
    let shifted := if carried then exponent + 1 else exponent
    if greatestExponent < shifted then infinite negative
    else finite negative (if carried then Nat.pow 2 52 else mantissa) shifted

def ofInt (value : Int) : Binary64 :=
  ofQuotient (value < 0) value.natAbs 1

/-- The number nearest to a decimal, `digits` times a power of ten. A power far outside
the format is decided without being computed. -/
def ofDecimal (negative : Bool) (digits : Nat) (power : Int) : Binary64 :=
  let size : Int := (Nat.toDigits 10 digits).length
  if digits = 0 ∨ size + power < -400 then
    finite negative 0 leastExponent
  else if 400 < size + power then
    infinite negative
  else
    let (up, down) := scale 10 power
    ofQuotient negative (digits * up) down

/-! ## Shortest decimal digits -/

/-- Decimal digits and the power of ten they are multiplied by. -/
structure Decimal where
  digits : Nat
  power : Int
deriving DecidableEq

/-- Whether a decimal lies in the interval that rounds to a positive number. The ends
belong to it if the mantissa is even; below a power of two the interval is half as wide. -/
def readsBack (mantissa : Nat) (exponent : Int) (decimal : Decimal) : Bool :=
  let narrow := mantissa = Nat.pow 2 52 && leastExponent < exponent
  let low := 4 * mantissa - (if narrow then 1 else 2)
  let high := 4 * mantissa + 2
  let (up, down) := scale 2 (exponent - 2)
  let (tens, tenths) := scale 10 decimal.power
  let value := decimal.digits * tens * down
  let floor := low * up * tenths
  let ceiling := high * up * tenths
  if mantissa % 2 = 0 then floor ≤ value && value ≤ ceiling
  else floor < value && value < ceiling

/-- The power of ten of the first digit of a positive number. -/
def leadingPower (mantissa : Nat) (exponent : Int) : Int :=
  let (up, down) := scale 2 exponent
  let whole := mantissa * up / down
  if 0 < whole then
    ((Nat.toDigits 10 whole).length : Int) - 1
  else
    let places := (Nat.toDigits 10 (down / (mantissa * up))).length
    let (tens, tenths) := scale 10 (-(places : Int))
    if tens * down ≤ mantissa * up * tenths then -(places : Int) else -(places : Int) - 1

/-- The two decimals of `count` digits round a positive number, the nearer one first; the
upper one comes first if both are equally near. -/
def neighbours (mantissa : Nat) (exponent : Int) (count : Nat) : List Decimal :=
  let power := leadingPower mantissa exponent - ((count : Int) - 1)
  let (up, down) := scale 2 exponent
  let (tens, tenths) := scale 10 power
  let dividend := mantissa * up * tenths
  let divisor := down * tens
  let below := dividend / divisor
  if divisor ≤ 2 * (dividend % divisor) then [⟨below + 1, power⟩, ⟨below, power⟩]
  else [⟨below, power⟩, ⟨below + 1, power⟩]

/-- The first decimal that reads back, trying ever more digits. -/
def shortestFrom (mantissa : Nat) (exponent : Int) : Nat → Nat → Decimal
  | 0, count => (neighbours mantissa exponent count).headD ⟨0, 0⟩
  | more + 1, count =>
      match (neighbours mantissa exponent count).find? (readsBack mantissa exponent) with
      | some decimal => decimal
      | none => shortestFrom mantissa exponent more (count + 1)

/-- The shortest decimal that is read back as a positive number; seventeen digits always
suffice. -/
def shortest (mantissa : Nat) (exponent : Int) : Decimal :=
  shortestFrom mantissa exponent 17 1

/-- Digits with a point, never with an exponent, and with at least one digit on both
sides of the point. -/
def Decimal.positional (decimal : Decimal) : String :=
  let digits := Nat.toDigits 10 decimal.digits
  if 0 ≤ decimal.power then
    String.ofList (digits ++ List.replicate decimal.power.toNat '0') ++ ".0"
  else
    let places := (-decimal.power).toNat
    let padded := List.replicate (places + 1 - digits.length) '0' ++ digits
    let whole := padded.take (padded.length - places)
    let behind := padded.drop (padded.length - places)
    let kept := (behind.reverse.dropWhile (· = '0')).reverse
    String.ofList whole ++ "." ++ (if kept.isEmpty then "0" else String.ofList kept)

def text : Binary64 → String
  | notANumber => "NaN"
  | infinite negative => if negative then "-inf" else "inf"
  | finite negative mantissa exponent =>
      let magnitude :=
        if mantissa = 0 then "0.0" else (shortest mantissa exponent).positional
      if negative then "-" ++ magnitude else magnitude

/-! ## Seconds -/

/-- Why a number of seconds is no duration. -/
inductive SecondsFault where
  | negative
  | tooBigOrNaN
deriving DecidableEq

def SecondsFault.message : SecondsFault → String
  | negative => "cannot convert float seconds to Duration: value is negative"
  | tooBigOrNaN => "cannot convert float seconds to Duration: value is either too big or NaN"

/-- A number of seconds as a duration: the nearest nanosecond, a tie to the even one.
Negative zero is zero, and whole seconds have to fit into 64 bits. -/
def toDuration : Binary64 → Except SecondsFault Duration
  | notANumber => .error .tooBigOrNaN
  | infinite negative => .error (if negative then .negative else .tooBigOrNaN)
  | finite negative mantissa exponent =>
      let (up, down) := scale 2 exponent
      if negative && mantissa ≠ 0 then .error .negative
      else if Nat.pow 2 64 * down ≤ mantissa * up then .error .tooBigOrNaN
      else .ok ⟨roundDiv (mantissa * up * 1000000000) down⟩

end Binary64

end FunctionGateway.Number
