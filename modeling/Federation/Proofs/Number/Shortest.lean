import Federation.Number.Shortest
import Mathlib.Algebra.Order.Field.Power
import Mathlib.Data.Rat.Cast.Order
import Mathlib.Tactic.FieldSimp
import Mathlib.Tactic.GCongr
import Mathlib.Tactic.Linarith
import Mathlib.Tactic.NormNum
import Mathlib.Tactic.Positivity
import Mathlib.Tactic.Ring

/-!
# What the shortest digits stand for

The digits that are written for a double stand for a number of its interval, so they go no further
than half of its last bit beyond it.
-/

namespace Federation.Double

def Decimal.value (decimal : Decimal) : ℚ := decimal.digits * 10 ^ decimal.exponent

-- ---------------------------------------------------------------------------
-- The interval
-- ---------------------------------------------------------------------------

theorem Interval.le_high_of_contains {i : Interval} (h : i.contains num den = true) :
    num * i.unit ≤ i.high * den := by
  unfold contains at h
  split at h
  · simp only [Bool.and_eq_true, decide_eq_true_eq] at h
    exact h.2
  · simp only [Bool.and_eq_true, decide_eq_true_eq] at h
    exact Nat.le_of_lt h.2

theorem Interval.low_le_of_contains {i : Interval} (h : i.contains num den = true) :
    i.low * den ≤ num * i.unit := by
  unfold contains at h
  split at h
  · simp only [Bool.and_eq_true, decide_eq_true_eq] at h
    exact h.1
  · simp only [Bool.and_eq_true, decide_eq_true_eq] at h
    exact Nat.le_of_lt h.1

theorem unit_interval_pos (d : Double) : 0 < d.interval.unit := by
  unfold interval
  dsimp only
  split
  · rw [Nat.shiftLeft_eq]
    positivity
  · exact Nat.one_pos

theorem low_interval_pos {d : Double} (h : d.mantissa ≠ 0) : 0 < d.interval.low := by
  unfold interval
  dsimp only
  refine Nat.mul_pos ?_ ?_
  · split <;> omega
  · split
    · exact Nat.one_pos
    · rw [Nat.shiftLeft_eq]
      positivity

theorem high_interval (d : Double) :
    (d.interval.high : ℚ) / d.interval.unit = (d.mantissa + 1 / 2) * 2 ^ d.exponent := by
  have power : (2 : ℚ) ^ d.exponent = 4 * 2 ^ (d.exponent - 2) := by
    rw [zpow_sub₀ two_ne_zero]
    field_simp
    norm_num
  rw [power]
  unfold interval
  dsimp only
  split
  case isTrue h =>
    obtain ⟨n, hn⟩ : ∃ n : Nat, d.exponent - 2 = -n := ⟨(d.exponent - 2).natAbs, by omega⟩
    rw [hn, Int.natAbs_neg, Int.natAbs_natCast, Nat.shiftLeft_eq, zpow_neg, zpow_natCast]
    push_cast
    field_simp
    ring
  case isFalse h =>
    obtain ⟨n, hn⟩ : ∃ n : Nat, d.exponent - 2 = n := ⟨(d.exponent - 2).natAbs, by omega⟩
    rw [hn, Int.natAbs_natCast, Nat.shiftLeft_eq, zpow_natCast]
    push_cast
    field_simp
    ring

-- ---------------------------------------------------------------------------
-- The grids
-- ---------------------------------------------------------------------------

variable {i : Interval} {decimal : Decimal}

theorem onGrid_contains (h : onGrid i top places = some decimal) :
    i.contains
      (decimal.digits * if decimal.exponent < 0 then 1 else Nat.pow 10 decimal.exponent.natAbs)
      (if decimal.exponent < 0 then Nat.pow 10 decimal.exponent.natAbs else 1) = true := by
  unfold onGrid at h
  extract_lets exponent up down low holds twice middle lowIsNearer at h
  clear_value lowIsNearer
  split at h
  case h_1 below above =>
    cases h
    cases lowIsNearer
    · exact above
    · exact below
  case h_2 below _ =>
    cases h
    exact below
  case h_3 _ above =>
    cases h
    exact above
  case h_4 => cases h

theorem onGrid_value_le (h : onGrid i top places = some decimal) (unit : 0 < i.unit) :
    decimal.value ≤ i.high / i.unit := by
  have inside := Interval.le_high_of_contains (onGrid_contains h)
  have unit : (0 : ℚ) < i.unit := by exact_mod_cast unit
  unfold Decimal.value
  rw [le_div_iff₀ unit]
  split at inside
  case isTrue negative =>
    obtain ⟨n, hn⟩ : ∃ n : Nat, decimal.exponent = -n := ⟨decimal.exponent.natAbs, by omega⟩
    rw [hn, Int.natAbs_neg, Int.natAbs_natCast, Nat.mul_one] at inside
    have inside : (decimal.digits * i.unit : ℚ) ≤ i.high * 10 ^ n := by exact_mod_cast inside
    rw [hn, zpow_neg, zpow_natCast, mul_right_comm, ← div_eq_mul_inv, div_le_iff₀ (by positivity)]
    exact inside
  case isFalse =>
    obtain ⟨n, hn⟩ : ∃ n : Nat, decimal.exponent = n := ⟨decimal.exponent.natAbs, by omega⟩
    rw [hn, Int.natAbs_natCast, Nat.mul_one] at inside
    rw [hn, zpow_natCast]
    exact_mod_cast inside

theorem onGrid_digits_ne (h : onGrid i top places = some decimal) (low : 0 < i.low) :
    decimal.digits ≠ 0 := by
  intro zero
  have inside := Interval.low_le_of_contains (onGrid_contains h)
  rw [zero, Nat.zero_mul, Nat.zero_mul] at inside
  have den : 0 < if decimal.exponent < 0 then Nat.pow 10 decimal.exponent.natAbs else 1 := by
    split
    · exact Nat.pow_pos (by decide)
    · exact Nat.one_pos
  have := Nat.mul_pos low den
  omega

theorem exists_onGrid (h : firstGrid i top fuel places = some decimal) :
    ∃ places, onGrid i top places = some decimal := by
  induction fuel generalizing places with
  | zero => cases h
  | succ fuel ih =>
    rw [firstGrid] at h
    cases hgrid : onGrid i top places with
    | some found =>
      rw [hgrid] at h
      exact ⟨places, hgrid.trans h⟩
    | none =>
      rw [hgrid] at h
      exact ih h

theorem dropZeros_spec (fuel : Nat) (decimal : Decimal) :
    (dropZeros fuel decimal).value = decimal.value ∧
      ((dropZeros fuel decimal).digits = 0 → decimal.digits = 0) := by
  induction fuel generalizing decimal with
  | zero => exact ⟨rfl, id⟩
  | succ fuel ih =>
    rw [dropZeros]
    split
    case isTrue h =>
      obtain ⟨value, digits⟩ := ih ⟨decimal.digits / 10, decimal.exponent + 1⟩
      refine ⟨value.trans ?_, fun zero => ?_⟩
      · have whole : decimal.digits = decimal.digits / 10 * 10 := by omega
        unfold Decimal.value
        rw [zpow_add_one₀ (by norm_num)]
        conv_rhs => rw [whole]
        push_cast
        ring
      · have := digits zero
        dsimp only at this
        omega
    case isFalse => exact ⟨rfl, id⟩

-- ---------------------------------------------------------------------------
-- The shortest decimal
-- ---------------------------------------------------------------------------

theorem value_shortest_le (d : Double) :
    d.shortest.value ≤ (d.mantissa + 1 / 2) * 2 ^ d.exponent := by
  have nothing : (⟨0, 0⟩ : Decimal).value ≤ (d.mantissa + 1 / 2) * 2 ^ d.exponent := by
    rw [Decimal.value, Nat.cast_zero, zero_mul]
    positivity
  unfold shortest
  dsimp only
  split
  · exact nothing
  · split
    case h_1 decimal found =>
      obtain ⟨places, grid⟩ := exists_onGrid found
      rw [(dropZeros_spec 20 decimal).1, ← high_interval]
      exact onGrid_value_le grid d.unit_interval_pos
    case h_2 => exact nothing

theorem exponent_shortest_of_digits {d : Double} (h : d.shortest.digits = 0) :
    d.shortest.exponent = 0 := by
  unfold shortest at h ⊢
  dsimp only at h ⊢
  split at h
  · rename_i zero
    rw [if_pos zero]
  · rename_i mantissa
    rw [if_neg mantissa]
    split at h
    · rename_i decimal found
      obtain ⟨places, grid⟩ := exists_onGrid found
      exact absurd ((dropZeros_spec 20 decimal).2 h)
        (onGrid_digits_ne grid (low_interval_pos mantissa))
    · rfl

end Federation.Double
