/-!
# Durations and instants

Durations are whole numbers of nanoseconds. An instant is the duration since the
clock was started, so that both share one arithmetic.
-/

namespace FunctionGateway

/-- A length of time in nanoseconds. -/
structure Duration where
  nanos : Nat
deriving DecidableEq

/-- A point of time, in nanoseconds since the clock was started. -/
abbrev Instant := Nat

namespace Duration

def zero : Duration := ⟨0⟩

def ofSeconds (seconds : Nat) : Duration := ⟨seconds * 1000000000⟩

def ofMillis (millis : Nat) : Duration := ⟨millis * 1000000⟩

def isZero (duration : Duration) : Bool := duration.nanos == 0

def seconds (duration : Duration) : Nat := duration.nanos / 1000000000

/-- Nanoseconds beyond the whole seconds. -/
def subsecNanos (duration : Duration) : Nat := duration.nanos % 1000000000

/-- Decimal digits of `value`, as many as `places`, with zeros in front. -/
def paddedDigits : Nat → Nat → List Char
  | 0, _ => []
  | places + 1, value => paddedDigits places (value / 10) ++ [Char.ofNat (48 + value % 10)]

/-- A whole number of units and a fraction of `places` digits, without trailing zeros. -/
def decimalText (whole fraction places : Nat) : String :=
  let digits := ((paddedDigits places fraction).reverse.dropWhile (· = '0')).reverse
  if digits.isEmpty then toString whole else toString whole ++ "." ++ String.ofList digits

/-- The text of a duration in the largest unit that it holds once: seconds, milliseconds,
microseconds or nanoseconds. -/
def text (duration : Duration) : String :=
  let nanos := duration.nanos
  if nanos ≥ 1000000000 then decimalText (nanos / 1000000000) (nanos % 1000000000) 9 ++ "s"
  else if nanos ≥ 1000000 then decimalText (nanos / 1000000) (nanos % 1000000) 6 ++ "ms"
  else if nanos ≥ 1000 then decimalText (nanos / 1000) (nanos % 1000) 3 ++ "µs"
  else toString nanos ++ "ns"

end Duration

end FunctionGateway
