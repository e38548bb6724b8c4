import Federation.Number.Significant
import Federation.Time.Duration

/-!
# Delays between attempts

The first delay is the initial one; each next delay is the current one times the multiplier, or the
greatest delay once the current one has reached the greatest one divided by the multiplier. Products
and quotients keep 53 significant bits and are cut to nanoseconds.
-/

namespace Federation

structure BackoffPolicy where
  initial : Duration := .ofMillis 500
  max : Duration := .ofSeconds 30
  multiplier : Double := ⟨0x4000000000000000⟩
  deriving DecidableEq, Repr

namespace BackoffPolicy

/-- The nanoseconds of a span, to 53 significant bits. -/
def nanosOf (d : Duration) : Nat :=
  Binary.nearestNat
    (Binary.nearestNat (Binary.nearestNat d.seconds * Duration.nanosPerSecond) + d.subsecond)

/-- The span of so many nanoseconds, which came out of a calculation. -/
def ofNanos (nanos : Binary) : Duration :=
  let (num, den) := nanos.ratio
  let seconds := min (Binary.nearest num (den * Duration.nanosPerSecond)).floor (UInt64.size - 1)
  let whole := min nanos.floor (UInt64.size - 1)
  ⟨seconds * Duration.nanosPerSecond + whole % Duration.nanosPerSecond⟩

def isCapped (policy : BackoffPolicy) (current : Duration) : Bool :=
  let m := policy.multiplier
  if m.mantissa = 0 then m.isNegative && nanosOf policy.max != 0
  else if m.isNegative || !m.isFinite then true
  else
    let (num, den) := m.ratio
    let (top, unit) := (Binary.nearest (nanosOf policy.max * den) num).ratio
    top ≤ nanosOf current * unit

def next (policy : BackoffPolicy) (current : Duration) : Duration :=
  if policy.isCapped current then policy.max
  else
    let (num, den) := policy.multiplier.ratio
    ofNanos (Binary.nearest (nanosOf current * num) den)

/-- The delay after attempt number `n`, counted from 0. -/
def delay (policy : BackoffPolicy) : Nat → Duration
  | 0 => policy.initial
  | n + 1 => policy.next (policy.delay n)

def delaysFrom (policy : BackoffPolicy) : Nat → Duration → List Duration
  | 0, _ => []
  | n + 1, current => current :: policy.delaysFrom n (policy.next current)

def delays (policy : BackoffPolicy) (n : Nat) : List Duration := policy.delaysFrom n policy.initial

end BackoffPolicy

end Federation
