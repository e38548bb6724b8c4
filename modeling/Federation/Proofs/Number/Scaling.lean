import Federation.Number.Scaling
import Mathlib.Algebra.Order.Field.Power
import Mathlib.Data.Rat.Cast.Order
import Mathlib.Tactic.FieldSimp
import Mathlib.Tactic.GCongr
import Mathlib.Tactic.Linarith
import Mathlib.Tactic.Positivity
import Mathlib.Tactic.Ring

/-!
# How far rounding goes

A quotient is rounded by at most half of what its last bit is worth. So a product of two numbers
that were rounded themselves stays within the doubles as long as the exact product is a few last
bits away from the end.
-/

namespace Federation

theorem roundHalfEven_near (num : Nat) {den : Nat} (hd : 0 < den) :
    2 * (den * roundHalfEven num den) ≤ 2 * num + den ∧
      2 * num ≤ 2 * (den * roundHalfEven num den) + den := by
  have split := Nat.div_add_mod num den
  have small := Nat.mod_lt num hd
  have up : den * (num / den + 1) = den * (num / den) + den := Nat.mul_succ _ _
  unfold roundHalfEven
  dsimp only
  split
  · omega
  · split
    · omega
    · split <;> omega

namespace Binary

-- ---------------------------------------------------------------------------
-- Powers of two
-- ---------------------------------------------------------------------------

theorem div_zpow_of_neg (num den : ℚ) {exponent : Int} (h : exponent < 0) :
    num / den / 2 ^ exponent = num * 2 ^ exponent.natAbs / den := by
  obtain ⟨n, rfl⟩ : ∃ n : Nat, exponent = -n := ⟨exponent.natAbs, by omega⟩
  rw [Int.natAbs_neg, Int.natAbs_natCast, zpow_neg, zpow_natCast]
  field_simp

theorem div_zpow_of_not_neg (num den : ℚ) {exponent : Int} (h : ¬ exponent < 0) :
    num / den / 2 ^ exponent = num / (den * 2 ^ exponent.natAbs) := by
  obtain ⟨n, rfl⟩ : ∃ n : Nat, exponent = n := ⟨exponent.natAbs, by omega⟩
  rw [Int.natAbs_natCast, zpow_natCast, div_div]

theorem shiftLeft_cast (n k : Nat) : ((n <<< k : Nat) : ℚ) = n * 2 ^ k := by
  rw [Nat.shiftLeft_eq]
  push_cast
  rfl

theorem shiftLeft_pos {n : Nat} (h : 0 < n) (k : Nat) : 0 < n <<< k := by
  rw [Nat.shiftLeft_eq]
  positivity

-- ---------------------------------------------------------------------------
-- One rounding
-- ---------------------------------------------------------------------------

def value (b : Binary) : ℚ := b.mantissa * 2 ^ b.exponent

theorem value_nonneg (b : Binary) : 0 ≤ b.value := by
  unfold value
  positivity

theorem ratio_pos (b : Binary) : 0 < b.ratio.2 := by
  unfold ratio
  split
  · exact shiftLeft_pos Nat.one_pos _
  · exact Nat.one_pos

theorem value_ratio (b : Binary) : (b.ratio.1 : ℚ) / b.ratio.2 = b.value := by
  unfold ratio value
  split
  case isTrue h =>
    have scaled := div_zpow_of_neg (b.mantissa * 2 ^ b.exponent) 1 h
    have positive : (2 : ℚ) ^ b.exponent ≠ 0 := by positivity
    rw [div_one, div_one, mul_div_cancel_right₀ _ positive] at scaled
    rw [shiftLeft_cast, Nat.cast_one, one_mul, div_eq_iff (by positivity)]
    exact scaled
  case isFalse h =>
    obtain ⟨n, hn⟩ : ∃ n : Nat, b.exponent = n := ⟨b.exponent.natAbs, by omega⟩
    rw [shiftLeft_cast, hn, Int.natAbs_natCast, zpow_natCast, Nat.cast_one, div_one]

variable {num den : Nat}

theorem roundAt_near (num : Nat) (hd : 0 < den) (exponent : Int) :
    (roundAt num den exponent : ℚ) ≤ num / den / 2 ^ exponent + 1 / 2 ∧
      (num / den / 2 ^ exponent : ℚ) ≤ roundAt num den exponent + 1 / 2 := by
  have half {n d : Nat} (hd : 0 < d) : (roundHalfEven n d : ℚ) ≤ n / d + 1 / 2 ∧
      (n / d : ℚ) ≤ roundHalfEven n d + 1 / 2 := by
    obtain ⟨above, below⟩ := roundHalfEven_near n hd
    have above : (2 * (d * roundHalfEven n d) : ℚ) ≤ 2 * n + d := by exact_mod_cast above
    have below : (2 * n : ℚ) ≤ 2 * (d * roundHalfEven n d) + d := by exact_mod_cast below
    have positive : (0 : ℚ) < d := by exact_mod_cast hd
    constructor
    · rw [← sub_le_iff_le_add, le_div_iff₀ positive]
      linarith
    · rw [div_le_iff₀ positive]
      linarith
  unfold roundAt
  split
  case isTrue h =>
    rw [div_zpow_of_neg _ _ h]
    simpa only [shiftLeft_cast] using half (n := num <<< exponent.natAbs) hd
  case isFalse h =>
    rw [div_zpow_of_not_neg _ _ h]
    simpa only [shiftLeft_cast] using half (n := num) (shiftLeft_pos hd exponent.natAbs)

theorem roundAt_zero (hd : 0 < den) (exponent : Int) : roundAt 0 den exponent = 0 := by
  unfold roundAt
  split
  · simp [roundHalfEven, hd]
  · simp [roundHalfEven, shiftLeft_pos hd]

/-- A quotient has as many bits before the point as the logarithms say, or one less. -/
theorem unitExponent_bounds (hn : 0 < num) (hd : 0 < den) :
    (2 : ℚ) ^ (52 : Nat) * 2 ^ unitExponent num den ≤ num / den ∧
      (num / den : ℚ) < 2 ^ (54 : Nat) * 2 ^ unitExponent num den := by
  have numLow : (2 : ℚ) ^ num.log2 ≤ num := by exact_mod_cast Nat.log2_self_le hn.ne'
  have numHigh : (num : ℚ) < 2 ^ (num.log2 + 1) := by exact_mod_cast Nat.lt_log2_self
  have denLow : (2 : ℚ) ^ den.log2 ≤ den := by exact_mod_cast Nat.log2_self_le hd.ne'
  have denHigh : (den : ℚ) < 2 ^ (den.log2 + 1) := by exact_mod_cast Nat.lt_log2_self
  have positive : (0 : ℚ) < den := by exact_mod_cast hd
  have unit : (2 : ℚ) ^ unitExponent num den = 2 ^ num.log2 / (2 ^ den.log2 * 2 ^ (53 : Nat)) := by
    rw [unitExponent, precision, zpow_sub₀ two_ne_zero, zpow_sub₀ two_ne_zero, zpow_natCast,
      zpow_natCast, zpow_natCast, div_div]
  rw [unit]
  constructor
  · rw [le_div_iff₀ positive]
    calc (2 : ℚ) ^ 52 * (2 ^ num.log2 / (2 ^ den.log2 * 2 ^ 53)) * den
        ≤ 2 ^ 52 * (2 ^ num.log2 / (2 ^ den.log2 * 2 ^ 53)) * 2 ^ (den.log2 + 1) := by gcongr
      _ = 2 ^ num.log2 := by field_simp; ring
      _ ≤ num := numLow
  · rw [div_lt_iff₀ positive]
    calc (num : ℚ) < 2 ^ (num.log2 + 1) := numHigh
      _ = 2 ^ 54 * (2 ^ num.log2 / (2 ^ den.log2 * 2 ^ 53)) * 2 ^ den.log2 := by field_simp; ring
      _ ≤ 2 ^ 54 * (2 ^ num.log2 / (2 ^ den.log2 * 2 ^ 53)) * den := by gcongr

theorem lastExponent_bounds (hn : 0 < num) (hd : 0 < den) :
    (2 : ℚ) ^ (52 : Nat) * 2 ^ lastExponent num den ≤ num / den ∧
      (num / den : ℚ) < 2 ^ (53 : Nat) * 2 ^ lastExponent num den := by
  obtain ⟨low, high⟩ := unitExponent_bounds hn hd
  have unit : (0 : ℚ) < 2 ^ unitExponent num den := by positivity
  -- the whole part in units tells whether the quotient has one bit more
  have rough {n d : Nat} (hd : 0 < d) (same : (n / d : ℚ) = num / den / 2 ^ unitExponent num den) :
      n / d < 1 <<< precision ↔ (num / den : ℚ) < 2 ^ (53 : Nat) * 2 ^ unitExponent num den := by
    have positive : (0 : ℚ) < d := by exact_mod_cast hd
    rw [Nat.shiftLeft_eq, one_mul, precision, Nat.div_lt_iff_lt_mul hd, ← div_lt_iff₀ unit, ← same,
      div_lt_iff₀ positive]
    exact_mod_cast Iff.rfl
  have decided : (lastExponent num den = unitExponent num den ∧
      (num / den : ℚ) < 2 ^ (53 : Nat) * 2 ^ unitExponent num den) ∨
        (lastExponent num den = unitExponent num den + 1 ∧
          ¬ (num / den : ℚ) < 2 ^ (53 : Nat) * 2 ^ unitExponent num den) := by
    unfold lastExponent
    dsimp only
    by_cases negative : unitExponent num den < 0
    · have same := div_zpow_of_neg num den negative
      rw [← shiftLeft_cast] at same
      rw [if_pos negative, ← rough hd same.symm]
      by_cases h : num <<< (unitExponent num den).natAbs / den < 1 <<< precision <;> simp [h]
    · have same := div_zpow_of_not_neg num den negative
      rw [← shiftLeft_cast] at same
      rw [if_neg negative, ← rough (shiftLeft_pos hd _) same.symm]
      by_cases h : num / den <<< (unitExponent num den).natAbs < 1 <<< precision <;> simp [h]
  rcases decided with ⟨last, below⟩ | ⟨last, above⟩
  · rw [last]
    exact ⟨low, below⟩
  · rw [last, zpow_add_one₀ two_ne_zero]
    constructor <;> linarith

theorem value_nearest_near (hn : 0 < num) (hd : 0 < den) :
    (nearest num den).value ≤ num / den * (1 + 1 / 2 ^ (53 : Nat)) ∧
      (num / den : ℚ) * (1 - 1 / 2 ^ (53 : Nat)) ≤ (nearest num den).value := by
  obtain ⟨above, below⟩ := roundAt_near num hd (lastExponent num den)
  have unit : (0 : ℚ) < 2 ^ lastExponent num den := by positivity
  have bits := (lastExponent_bounds hn hd).1
  rw [← sub_le_iff_le_add, le_div_iff₀ unit] at above
  rw [div_le_iff₀ unit] at below
  unfold value nearest
  dsimp only
  constructor <;> linarith

/-- A double is above the exact quotient by its last significant bit, or by the last bit of all. -/
theorem value_nearestDouble_le (hd : 0 < den) :
    (nearestDouble num den).value ≤ 2 * (num / den) + 1 := by
  rcases Nat.eq_zero_or_pos num with rfl | hn
  · simp [value, nearestDouble, roundAt_zero hd]
  have rounded := (roundAt_near num hd (max (lastExponent num den) leastExponent)).1
  have unit : (0 : ℚ) < 2 ^ max (lastExponent num den) leastExponent := by positivity
  have bits := (lastExponent_bounds hn hd).1
  have tiny : (2 : ℚ) ^ leastExponent ≤ 1 := zpow_le_one_of_nonpos₀ (by norm_num) (by decide)
  have step : (2 : ℚ) ^ max (lastExponent num den) leastExponent ≤ num / den + 1 := by
    have exact : (0 : ℚ) ≤ num / den := by positivity
    rcases max_choice (lastExponent num den) leastExponent with h | h <;> rw [h]
    · linarith
    · linarith
  rw [← sub_le_iff_le_add, le_div_iff₀ unit] at rounded
  unfold value nearestDouble
  dsimp only
  linarith

-- ---------------------------------------------------------------------------
-- Within the doubles
-- ---------------------------------------------------------------------------

/-- Below the middle between the greatest double and the next number there would be, a quotient is
rounded to a double. -/
theorem magnitudeBits_lt (hd : 0 < den)
    (h : (num / den : ℚ) < (2 ^ (53 : Nat) - 1 / 2) * 2 ^ (971 : Nat)) :
    (nearestDouble num den).magnitudeBits < Double.infinityBits := by
  rcases Nat.eq_zero_or_pos num with rfl | hn
  · simp [magnitudeBits, nearestDouble, roundAt_zero hd, Double.infinityBits]
  obtain ⟨low, high⟩ := lastExponent_bounds hn hd
  have least : lastExponent num den ≤ 971 := by
    by_contra beyond
    have power : (2 : ℚ) ^ (971 + 1 : Nat) ≤ 2 ^ lastExponent num den := by
      rw [← zpow_natCast]
      exact zpow_le_zpow_right₀ (by norm_num) (by push_cast; omega)
    have positive : (0 : ℚ) < 2 ^ (971 : Nat) := by positivity
    rw [pow_succ] at power
    generalize (2 : ℚ) ^ (971 : Nat) = unit at *
    linarith
  have rounded := (roundAt_near num hd (max (lastExponent num den) leastExponent)).1
  generalize hexponent : max (lastExponent num den) leastExponent = exponent at rounded
  have unit : (0 : ℚ) < 2 ^ exponent := by positivity
  have wide : (num / den : ℚ) < 2 ^ (53 : Nat) * 2 ^ exponent := by
    refine lt_of_lt_of_le high ?_
    have grown : (2 : ℚ) ^ lastExponent num den ≤ 2 ^ exponent :=
      zpow_le_zpow_right₀ (by norm_num) (by omega)
    gcongr
  have mantissa : roundAt num den exponent ≤ 2 ^ 53 := by
    rw [← div_lt_iff₀ unit] at wide
    have bound : (roundAt num den exponent : ℚ) < 2 ^ (53 : Nat) + 1 := by linarith
    exact Nat.lt_succ_iff.mp (by exact_mod_cast bound)
  have top : exponent = 971 → roundAt num den exponent < 2 ^ 53 := by
    intro last
    have same : (2 : ℚ) ^ exponent = 2 ^ (971 : Nat) := by rw [last, zpow_ofNat]
    rw [← same, ← div_lt_iff₀ unit] at h
    have bound : (roundAt num den exponent : ℚ) < 2 ^ (53 : Nat) := by linarith
    exact_mod_cast bound
  have range : leastExponent ≤ exponent ∧ exponent ≤ 971 := by
    constructor
    · omega
    · rw [← hexponent]
      exact max_le least (by decide)
  have bits : (nearestDouble num den).magnitudeBits = if roundAt num den exponent = 0 then 0 else
      (exponent - leastExponent).toNat <<< 52 + roundAt num den exponent := by
    rw [← hexponent]
    rfl
  rw [bits]
  generalize roundAt num den exponent = rounded at *
  unfold leastExponent at *
  unfold Double.infinityBits
  split
  · decide
  · rcases eq_or_ne exponent 971 with last | inner
    · have := top last
      omega
    · omega

-- ---------------------------------------------------------------------------
-- Scaling
-- ---------------------------------------------------------------------------

theorem times_ratio (a b : Binary) :
    ((a.ratio.1 * b.ratio.1 : Nat) / (a.ratio.2 * b.ratio.2 : Nat) : ℚ) = a.value * b.value := by
  rw [← a.value_ratio, ← b.value_ratio]
  push_cast
  rw [div_mul_div_comm]

theorem dividedBy_ratio (a b : Binary) :
    ((a.ratio.1 * b.ratio.2 : Nat) / (a.ratio.2 * b.ratio.1 : Nat) : ℚ) = a.value / b.value := by
  rw [← a.value_ratio, ← b.value_ratio]
  push_cast
  rw [div_div_div_eq]

theorem value_powerOfTen_near (exponent : Nat) :
    (powerOfTen exponent).value ≤ 10 ^ exponent * (1 + 1 / 2 ^ (53 : Nat)) ∧
      (10 ^ exponent : ℚ) * (1 - 1 / 2 ^ (53 : Nat)) ≤ (powerOfTen exponent).value := by
  have near := @value_nearest_near (10 ^ exponent) 1 (by positivity) Nat.one_pos
  simpa [powerOfTen] using near

theorem four_le_powerOfTen {exponent : Nat} (h : exponent ≠ 0) :
    4 ≤ (powerOfTen exponent).value := by
  have ten : (10 : ℚ) ≤ 10 ^ exponent := le_self_pow₀ (by norm_num) h
  have near := (value_powerOfTen_near exponent).2
  norm_num at near
  linarith

theorem dividedBy_den_pos (a : Binary) {b : Binary} (h : 0 < b.value) :
    0 < a.ratio.2 * b.ratio.1 := by
  refine Nat.mul_pos a.ratio_pos (Nat.pos_of_ne_zero fun zero => ?_)
  rw [← b.value_ratio, zero] at h
  simp at h

theorem value_dividedBy_le {a b : Binary} (ha : a.value ≤ 2 ^ (70 : Nat)) (hb : 4 ≤ b.value) :
    (a.dividedBy b).value ≤ 2 ^ (70 : Nat) := by
  have positive : 0 < b.value := by linarith
  have quotient : a.value / b.value ≤ a.value / 4 := by
    have := a.value_nonneg
    gcongr
  have near := @value_nearestDouble_le (a.ratio.1 * b.ratio.2) _ (a.dividedBy_den_pos positive)
  rw [dividedBy_ratio] at near
  unfold dividedBy
  norm_num at ha ⊢
  linarith

theorem value_divideOut_le (rounds : Nat) {x : Binary} (h : x.value ≤ 2 ^ (70 : Nat)) :
    (divideOut rounds x).value ≤ 2 ^ (70 : Nat) := by
  induction rounds generalizing x with
  | zero => exact h
  | succ rounds ih =>
    rw [divideOut]
    split
    · exact h
    · exact ih (value_dividedBy_le h (four_le_powerOfTen (by decide)))

theorem magnitudeBits_scaleDown_lt {x : Binary} (h : x.value ≤ 2 ^ (70 : Nat)) {exponent : Nat}
    (hexponent : exponent ≠ 0) : (x.scaleDown exponent).magnitudeBits < Double.infinityBits := by
  unfold scaleDown
  dsimp only
  have last : exponent - greatestPower * ((exponent - 1) / greatestPower) ≠ 0 := by
    have := Nat.mul_div_le (exponent - 1) greatestPower
    omega
  have divisor := four_le_powerOfTen last
  have dividend := value_divideOut_le ((exponent - 1) / greatestPower) h
  have positive : 0 < (powerOfTen (exponent - greatestPower *
      ((exponent - 1) / greatestPower))).value := by linarith
  refine magnitudeBits_lt (dividedBy_den_pos _ positive) ?_
  rw [dividedBy_ratio]
  generalize divideOut _ _ = y at *
  generalize powerOfTen _ = p at *
  have quotient : y.value / p.value ≤ y.value := div_le_self y.value_nonneg (by linarith)
  have large : (2 : ℚ) ^ (18 : Nat) ≤ 2 ^ (971 : Nat) := pow_le_pow_right₀ (by norm_num) (by decide)
  calc y.value / p.value ≤ 2 ^ (70 : Nat) := quotient.trans dividend
    _ < (2 ^ (53 : Nat) - 1 / 2) * 2 ^ (18 : Nat) := by norm_num
    _ ≤ (2 ^ (53 : Nat) - 1 / 2) * 2 ^ (971 : Nat) :=
      mul_le_mul_of_nonneg_left large (by norm_num)

theorem value_nearest_le (num : Nat) (hd : 0 < den) :
    (nearest num den).value ≤ num / den * (1 + 1 / 2 ^ (53 : Nat)) := by
  rcases Nat.eq_zero_or_pos num with rfl | hn
  · simp [value, nearest, roundAt_zero hd]
  · exact (value_nearest_near hn hd).1

theorem value_nearest_one_le (n : Nat) :
    (nearest n 1).value ≤ n * (1 + 1 / 2 ^ (53 : Nat)) := by
  simpa using value_nearest_le n Nat.one_pos

theorem magnitudeBits_times_lt {significand exponent : Nat}
    (h : (significand * 10 ^ exponent : ℚ) * (1 + 1 / 2 ^ (53 : Nat)) ^ 2 <
      (2 ^ (53 : Nat) - 1 / 2) * 2 ^ (971 : Nat)) :
    ((nearest significand 1).times (powerOfTen exponent)).magnitudeBits < Double.infinityBits := by
  refine magnitudeBits_lt (Nat.mul_pos (ratio_pos _) (ratio_pos _)) ?_
  rw [times_ratio]
  have first := value_nearest_one_le significand
  have second := (value_powerOfTen_near exponent).1
  refine lt_of_le_of_lt ?_ h
  calc (nearest significand 1).value * (powerOfTen exponent).value
      ≤ significand * (1 + 1 / 2 ^ (53 : Nat)) * (10 ^ exponent * (1 + 1 / 2 ^ (53 : Nat))) :=
        mul_le_mul first second (value_nonneg _) (by positivity)
    _ = significand * 10 ^ exponent * (1 + 1 / 2 ^ (53 : Nat)) ^ 2 := by ring

/-- The product is one that doubles can hold: the power of ten is negative, or the product is not
too near to the end. -/
def Scalable (significand : Nat) (exponent : Int) : Prop :=
  exponent < 0 ∨ (significand * 10 ^ exponent.natAbs : ℚ) * (1 + 1 / 2 ^ (53 : Nat)) ^ 2 <
    (2 ^ (53 : Nat) - 1 / 2) * 2 ^ (971 : Nat)

theorem le_greatestPower {significand exponent : Nat} (positive : significand ≠ 0)
    (h : (significand * 10 ^ exponent : ℚ) * (1 + 1 / 2 ^ (53 : Nat)) ^ 2 <
      (2 ^ (53 : Nat) - 1 / 2) * 2 ^ (971 : Nat)) : exponent ≤ greatestPower := by
  by_contra beyond
  have ended : (2 ^ 1024 : Nat) ≤ 10 ^ (greatestPower + 1) := by decide +kernel
  have ended : (2 : ℚ) ^ (1024 : Nat) ≤ 10 ^ (greatestPower + 1) := by exact_mod_cast ended
  have one : (1 : ℚ) ≤ significand := by exact_mod_cast Nat.one_le_iff_ne_zero.mpr positive
  have power : (10 : ℚ) ^ (greatestPower + 1) ≤ significand * 10 ^ exponent := by
    calc (10 : ℚ) ^ (greatestPower + 1) ≤ 10 ^ exponent :=
          pow_le_pow_right₀ (by norm_num) (by omega)
      _ ≤ significand * 10 ^ exponent := le_mul_of_one_le_left (by positivity) one
  have product : (significand * 10 ^ exponent : ℚ) ≤
      significand * 10 ^ exponent * (1 + 1 / 2 ^ (53 : Nat)) ^ 2 :=
    le_mul_of_one_le_right (by positivity) (by norm_num)
  have split : (2 : ℚ) ^ (1024 : Nat) = 2 ^ (53 : Nat) * 2 ^ (971 : Nat) := by
    rw [← pow_add]
  have unit : (0 : ℚ) < 2 ^ (971 : Nat) := by positivity
  rw [split] at ended
  generalize (2 : ℚ) ^ (971 : Nat) = unit at *
  linarith

theorem value_nearest_word_le {significand : Nat} (fits : significand < UInt64.size) :
    (nearest significand 1).value ≤ 2 ^ (70 : Nat) := by
  have bits : (significand : ℚ) ≤ 2 ^ (64 : Nat) := by exact_mod_cast Nat.le_of_lt fits
  calc (nearest significand 1).value
      ≤ significand * (1 + 1 / 2 ^ (53 : Nat)) := value_nearest_one_le significand
    _ ≤ 2 ^ (64 : Nat) * (1 + 1 / 2 ^ (53 : Nat)) := by gcongr
    _ ≤ 2 ^ (70 : Nat) := by norm_num

theorem isSome_scale {significand : Nat} {exponent : Int} (fits : significand < UInt64.size)
    (h : Scalable significand exponent) (negative : Bool) :
    ((scale significand exponent).bind (Double.ofBinary? negative)).isSome = true := by
  have double {b : Binary} (h : b.magnitudeBits < Double.infinityBits) :
      (Double.ofBinary? negative b).isSome = true := by
    rw [Double.ofBinary?, if_pos h]
    rfl
  unfold scale
  dsimp only
  by_cases below : exponent < 0
  · rw [if_pos below]
    exact double (magnitudeBits_scaleDown_lt (value_nearest_word_le fits) (by omega))
  · rw [if_neg below]
    have small := h.resolve_left below
    rcases eq_or_ne significand 0 with rfl | positive
    · split
      · exact double (magnitudeBits_times_lt small)
      · refine double (b := nearest 0 1) ?_
        rw [magnitudeBits, nearest, roundAt_zero Nat.one_pos]
        decide
    · have range := le_greatestPower positive small
      rw [if_pos (by omega)]
      exact double (magnitudeBits_times_lt small)

theorem scalable_of_nonpos {significand : Nat} {exponent : Int} (fits : significand < UInt64.size)
    (h : exponent ≤ 0) : Scalable significand exponent := by
  rcases h.lt_or_eq with below | rfl
  · exact .inl below
  · right
    have bits : (significand : ℚ) < 2 ^ (64 : Nat) := by exact_mod_cast fits
    have large : (2 : ℚ) ^ (18 : Nat) ≤ 2 ^ (971 : Nat) :=
      pow_le_pow_right₀ (by norm_num) (by decide)
    calc (significand * 10 ^ (0 : Int).natAbs : ℚ) * (1 + 1 / 2 ^ (53 : Nat)) ^ 2
        = significand * (1 + 1 / 2 ^ (53 : Nat)) ^ 2 := by simp
      _ ≤ 2 ^ (64 : Nat) * (1 + 1 / 2 ^ (53 : Nat)) ^ 2 := by gcongr
      _ < (2 ^ (53 : Nat) - 1 / 2) * 2 ^ (18 : Nat) := by norm_num
      _ ≤ (2 ^ (53 : Nat) - 1 / 2) * 2 ^ (971 : Nat) :=
        mul_le_mul_of_nonneg_left large (by norm_num)

end Binary

end Federation
