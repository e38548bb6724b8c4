import Federation.Number.Double

/-!
# The shortest decimal that reads back

Among the decimals that round to a given double, those with the fewest digits are the shortest,
and of these the nearest to the double is its digits. The search is exact: on the grid of decimals
with 1, 2, … 17 digits only the two neighbours of the value can be the nearest.
-/

namespace Federation.Double

/-- `digits * 10 ^ exponent`. -/
structure Decimal where
  digits : Nat
  exponent : Int
  deriving DecidableEq, Repr

/-- The decimals that round to the double lie between `low / unit` and `high / unit`; the ends
count when the mantissa is even. -/
structure Interval where
  low : Nat
  value : Nat
  high : Nat
  unit : Nat
  closed : Bool

def interval (d : Double) : Interval :=
  let m := d.mantissa
  let shift := d.exponent - 2
  let scale := if shift < 0 then 1 else 1 <<< shift.natAbs
  let unit := if shift < 0 then 1 <<< shift.natAbs else 1
  let below := if d.fraction = 0 ∧ 1 < d.exponentField then 1 else 2
  { low := (4 * m - below) * scale, value := 4 * m * scale, high := (4 * m + 2) * scale,
    unit, closed := m % 2 = 0 }

def Interval.contains (i : Interval) (num den : Nat) : Bool :=
  if i.closed then i.low * den ≤ num * i.unit && num * i.unit ≤ i.high * den
  else i.low * den < num * i.unit && num * i.unit < i.high * den

/-- The greatest `e` with `10 ^ e ≤ num / den`, for a quotient of at least one. -/
def logTen (num den : Nat) : Nat := ((Nat.toDigits 10 (num / den)).length) - 1

/-- The least `e` with `1 ≤ num / den * 10 ^ e`, for a positive quotient below one. -/
def leadingZeros (num den : Nat) : Nat → Nat → Nat
  | 0, e => e
  | fuel + 1, e => if den ≤ num * Nat.pow 10 e then e else leadingZeros num den fuel (e + 1)

def magnitude (num den : Nat) : Int :=
  if den ≤ num then logTen num den else -(leadingZeros num den 400 1 : Nat)

/-- The nearer of the two neighbours with `places` digits that lie in the interval. -/
def onGrid (i : Interval) (top : Int) (places : Nat) : Option Decimal :=
  let exponent := top - (places - 1 : Nat)
  let up := if exponent < 0 then 1 else Nat.pow 10 exponent.natAbs
  let down := if exponent < 0 then Nat.pow 10 exponent.natAbs else 1
  let low := i.value * down / (i.unit * up)
  let holds := fun n => i.contains (n * up) down
  let twice := 2 * (i.value * down)
  let middle := (2 * low + 1) * (i.unit * up)
  let lowIsNearer := twice < middle || (twice == middle && low % 2 == 0)
  match holds low, holds (low + 1) with
  | true, true => some ⟨if lowIsNearer then low else low + 1, exponent⟩
  | true, false => some ⟨low, exponent⟩
  | false, true => some ⟨low + 1, exponent⟩
  | false, false => none

def firstGrid (i : Interval) (top : Int) : Nat → Nat → Option Decimal
  | 0, _ => none
  | fuel + 1, places => onGrid i top places <|> firstGrid i top fuel (places + 1)

def dropZeros : Nat → Decimal → Decimal
  | 0, d => d
  | fuel + 1, d =>
    if d.digits ≠ 0 ∧ d.digits % 10 = 0 then dropZeros fuel ⟨d.digits / 10, d.exponent + 1⟩ else d

/-- The digits of the absolute value of a finite double; zero for zero. -/
def shortest (d : Double) : Decimal :=
  if d.mantissa = 0 then ⟨0, 0⟩
  else
    let i := d.interval
    let top := magnitude i.value i.unit
    match firstGrid i top 17 1 with
    | some decimal => dropZeros 20 decimal
    | none => ⟨0, 0⟩

end Federation.Double
