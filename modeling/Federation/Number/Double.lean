/-!
# Binary floating point values

A double is its 64 bits, so equality is decidable and tells `0.0` from `-0.0`. A finite one stands
for `mantissa * 2 ^ exponent`, negated when the sign bit is set.
-/

namespace Federation

structure Double where
  bits : UInt64
  deriving DecidableEq, Repr, Inhabited

namespace Double

def toFloat (d : Double) : Float := Float.ofBits d.bits

def ofFloat (x : Float) : Double := ⟨x.toBits⟩

/-- The nearest double, ties to even. -/
def ofNat (n : Nat) : Double := ofFloat (Float.ofNat n)

def isNegative (d : Double) : Bool := d.bits >>> 63 == 1

def exponentField (d : Double) : Nat := ((d.bits >>> 52) &&& 0x7FF).toNat

def fraction (d : Double) : Nat := (d.bits &&& 0xFFFFFFFFFFFFF).toNat

def isFinite (d : Double) : Bool := d.exponentField != 0x7FF

def mantissa (d : Double) : Nat :=
  if d.exponentField = 0 then d.fraction else d.fraction + 1 <<< 52

def exponent (d : Double) : Int := (max d.exponentField 1 : Nat) - 1075

/-- The absolute value of a finite double as a quotient of natural numbers. -/
def ratio (d : Double) : Nat × Nat :=
  if d.exponent < 0 then (d.mantissa, 1 <<< d.exponent.natAbs)
  else (d.mantissa <<< d.exponent.natAbs, 1)

def isPositive (d : Double) : Bool :=
  !d.isNegative && d.bits != 0 && (d.isFinite || d.fraction == 0)

end Double

end Federation
