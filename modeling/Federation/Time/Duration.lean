import Federation.Number.Double
import Federation.Number.Rounding

/-!
# Spans of time

A span is a whole number of nanoseconds. Spans read from seconds are rounded to the nearest
nanosecond and have to stay below `2 ^ 64` seconds.
-/

namespace Federation

structure Duration where
  nanos : Nat
  deriving DecidableEq, Repr, Inhabited

namespace Duration

def nanosPerSecond : Nat := 1000000000

def ofSeconds (n : Nat) : Duration := ⟨n * nanosPerSecond⟩

def ofMillis (n : Nat) : Duration := ⟨n * 1000000⟩

def seconds (d : Duration) : Nat := d.nanos / nanosPerSecond

def millis (d : Duration) : Nat := d.nanos / 1000000

def subsecond (d : Duration) : Nat := d.nanos % nanosPerSecond

/-- A number of seconds as a span: none if it is negative, not a number, or too long. -/
def ofDouble? (x : Double) : Option Duration :=
  if !x.isFinite || (x.isNegative && x.mantissa != 0) then none
  else
    let (num, den) := x.ratio
    let nanos := roundHalfEven (num * nanosPerSecond) den
    if nanos < UInt64.size * nanosPerSecond then some ⟨nanos⟩ else none

def padded (width n : Nat) : String :=
  let digits := toString n
  String.ofList (List.replicate (width - digits.length) '0') ++ digits

/-- Seconds, a point and nine digits. -/
def decimal (d : Duration) : String :=
  toString d.seconds ++ "." ++ padded 9 d.subsecond

def withFraction (whole fraction width : Nat) (unit : String) : String :=
  let digits := ((padded width fraction).toList.reverse.dropWhile (· == '0')).reverse
  if digits.isEmpty then toString whole ++ unit
  else toString whole ++ "." ++ String.ofList digits ++ unit

/-- The largest unit of which the span holds at least one, with as many places as it takes. -/
def display (d : Duration) : String :=
  if nanosPerSecond ≤ d.nanos then withFraction d.seconds d.subsecond 9 "s"
  else if 1000000 ≤ d.nanos then withFraction (d.nanos / 1000000) (d.nanos % 1000000) 6 "ms"
  else if 1000 ≤ d.nanos then withFraction (d.nanos / 1000) (d.nanos % 1000) 3 "µs"
  else toString d.nanos ++ "ns"

end Duration

end Federation
