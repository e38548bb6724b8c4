import Federation.Number.Double
import Federation.Number.Significant

/-!
# Powers of ten in doubles

A significand times a power of ten, worked out step by step as doubles have it: each step gives the
nearest number with 53 significant bits, none of which is worth less than `2 ^ -1074`. Whether a
double can be that large only counts in the end.
-/

namespace Federation

namespace Binary

/-- What the last bit of the smallest doubles is worth, as a power of two. -/
def leastExponent : Int := -1074

/-- The nearest number to `num / den` that has no bits below those of doubles. -/
def nearestDouble (num den : Nat) : Binary :=
  let exponent := max (lastExponent num den) leastExponent
  ⟨roundAt num den exponent, exponent⟩

def times (a b : Binary) : Binary :=
  nearestDouble (a.ratio.1 * b.ratio.1) (a.ratio.2 * b.ratio.2)

def dividedBy (a b : Binary) : Binary :=
  nearestDouble (a.ratio.1 * b.ratio.2) (a.ratio.2 * b.ratio.1)

def powerOfTen (exponent : Nat) : Binary := nearest (Nat.pow 10 exponent) 1

/-- The greatest exponent of a power of ten that is a double. -/
def greatestPower : Nat := 308

/-- Divides by the greatest power of ten so many times, or until nothing is left. -/
def divideOut : Nat → Binary → Binary
  | 0, x => x
  | n + 1, x => if x.mantissa = 0 then x else divideOut n (x.dividedBy (powerOfTen greatestPower))

/-- Division by a power of ten, in steps no double power exceeds. -/
def scaleDown (x : Binary) (exponent : Nat) : Binary :=
  let rounds := (exponent - 1) / greatestPower
  (divideOut rounds x).dividedBy (powerOfTen (exponent - greatestPower * rounds))

/-- A significand times a power of ten; none when the power is beyond the doubles. -/
def scale (significand : Nat) (exponent : Int) : Option Binary :=
  let x := nearest significand 1
  if exponent < 0 then some (x.scaleDown exponent.natAbs)
  else if exponent ≤ greatestPower then some (x.times (powerOfTen exponent.natAbs))
  else if significand = 0 then some x
  else none

/-- The bits of a double without its sign. They go on counting from the mantissa to the exponent, so
a mantissa that was rounded up to one more bit comes out right. -/
def magnitudeBits (b : Binary) : Nat :=
  if b.mantissa = 0 then 0 else (b.exponent - leastExponent).toNat <<< 52 + b.mantissa

end Binary

namespace Double

def infinityBits : Nat := 0x7FF0000000000000

/-- The double of that value; none when there is no double so large. -/
def ofBinary? (negative : Bool) (b : Binary) : Option Double :=
  if b.magnitudeBits < infinityBits then
    some ⟨.ofNat (b.magnitudeBits + if negative then 1 <<< 63 else 0)⟩
  else none

end Double

end Federation
