import Federation.Number.Rounding

/-!
# Fifty-three significant bits

The nearest number to a quotient that a double can hold, ties to even, in exact arithmetic and
without a limit on the exponent.
-/

namespace Federation

/-- `mantissa * 2 ^ exponent`. -/
structure Binary where
  mantissa : Nat
  exponent : Int
  deriving DecidableEq, Repr

namespace Binary

def precision : Nat := 53

def ratio (b : Binary) : Nat × Nat :=
  if b.exponent < 0 then (b.mantissa, 1 <<< b.exponent.natAbs)
  else (b.mantissa <<< b.exponent.natAbs, 1)

def floor (b : Binary) : Nat := b.ratio.1 / b.ratio.2

/-- The exponent of the last of the significant bits of `num / den`, or one below it. -/
def unitExponent (num den : Nat) : Int :=
  (Nat.log2 num : Int) - Nat.log2 den - precision

/-- `num / den` as a multiple of `2 ^ exponent`, rounded. -/
def roundAt (num den : Nat) (exponent : Int) : Nat :=
  if exponent < 0 then roundHalfEven (num <<< exponent.natAbs) den
  else roundHalfEven num (den <<< exponent.natAbs)

/-- The exponent of the last of the significant bits of `num / den`. -/
def lastExponent (num den : Nat) : Int :=
  let low := unitExponent num den
  let rough := if low < 0 then num <<< low.natAbs / den else num / (den <<< low.natAbs)
  if rough < 1 <<< precision then low else low + 1

/-- The nearest number with the precision to `num / den`. -/
def nearest (num den : Nat) : Binary :=
  ⟨roundAt num den (lastExponent num den), lastExponent num den⟩

/-- A natural number with only its significant bits. -/
def nearestNat (n : Nat) : Nat := if n < 1 <<< precision then n else (nearest n 1).floor

theorem nearestNat_of_lt {n : Nat} (h : n < 1 <<< precision) : nearestNat n = n := by
  simp [nearestNat, h]

end Binary

end Federation
