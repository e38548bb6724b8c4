import Federation.Proofs.Number.Scaling

/-!
# Rounding beside whole numbers

A whole number with no more bits than the precision is one of the numbers that quotients are rounded
to, so no rounding leads past it.
-/

namespace Federation

namespace Binary

variable {num den n : Nat}

def wholes : Nat := 2 ^ precision

-- ---------------------------------------------------------------------------
-- Whole parts
-- ---------------------------------------------------------------------------

theorem le_floor_iff (b : Binary) : n ≤ b.floor ↔ (n : ℚ) ≤ b.value := by
  have positive : (0 : ℚ) < b.ratio.2 := by exact_mod_cast b.ratio_pos
  rw [floor, Nat.le_div_iff_mul_le b.ratio_pos, ← b.value_ratio, le_div_iff₀ positive]
  exact_mod_cast Iff.rfl

theorem floor_lt_iff (b : Binary) : b.floor < n ↔ b.value < n := by
  rw [← Nat.not_le, le_floor_iff, not_le]

-- ---------------------------------------------------------------------------
-- Roundings and whole numbers
-- ---------------------------------------------------------------------------

theorem exists_multiple (n : Nat) {exponent : Int} (h : exponent ≤ 0) :
    ∃ m : Nat, (n : ℚ) = m * 2 ^ exponent := by
  obtain ⟨i, rfl⟩ : ∃ i : Nat, exponent = -i := ⟨exponent.natAbs, by omega⟩
  refine ⟨n * 2 ^ i, ?_⟩
  rw [zpow_neg, zpow_natCast]
  push_cast
  field_simp

theorem lastExponent_nonpos (hn : 0 < num) (hd : 0 < den) (h : (num / den : ℚ) < wholes) :
    lastExponent num den ≤ 0 := by
  by_contra beyond
  have bits := (lastExponent_bounds hn hd).1
  have power : (2 : ℚ) ^ (1 : Int) ≤ 2 ^ lastExponent num den :=
    zpow_le_zpow_right₀ (by norm_num) (by omega)
  norm_num [wholes, precision] at h bits power
  linarith

theorem div_le_cast (hd : 0 < den) : (num / den : ℚ) ≤ n ↔ num ≤ n * den := by
  have positive : (0 : ℚ) < den := by exact_mod_cast hd
  rw [div_le_iff₀ positive]
  exact_mod_cast Iff.rfl

theorem cast_le_div (hd : 0 < den) : (n : ℚ) ≤ num / den ↔ n * den ≤ num := by
  have positive : (0 : ℚ) < den := by exact_mod_cast hd
  rw [le_div_iff₀ positive]
  exact_mod_cast Iff.rfl

theorem value_nearest_le_of_le (hd : 0 < den) (h : num ≤ n * den) (small : n < wholes) :
    (nearest num den).value ≤ n := by
  rcases Nat.eq_zero_or_pos num with rfl | hn
  · simp [value, nearest, roundAt_zero hd]
  have h := (div_le_cast hd).mpr h
  have below : (num / den : ℚ) < wholes := lt_of_le_of_lt h (by exact_mod_cast small)
  obtain ⟨m, hm⟩ := exists_multiple n (lastExponent_nonpos hn hd below)
  have unit : (0 : ℚ) < 2 ^ lastExponent num den := by positivity
  have near := (roundAt_near num hd (lastExponent num den)).1
  rw [hm, ← div_le_iff₀ unit] at h
  have bound : (roundAt num den (lastExponent num den) : ℚ) < m + 1 := by linarith
  have bound : roundAt num den (lastExponent num den) ≤ m :=
    Nat.lt_succ_iff.mp (by exact_mod_cast bound)
  rw [hm, value, nearest]
  gcongr

theorem le_value_nearest_of_le (hd : 0 < den) (h : n * den ≤ num) (small : n < wholes) :
    (n : ℚ) ≤ (nearest num den).value := by
  rcases Nat.eq_zero_or_pos n with rfl | positive
  · exact_mod_cast value_nonneg _
  have hn : 0 < num := Nat.lt_of_lt_of_le (Nat.mul_pos positive hd) h
  have h := (cast_le_div hd).mpr h
  have unit : (0 : ℚ) < 2 ^ lastExponent num den := by positivity
  have near := (roundAt_near num hd (lastExponent num den)).2
  rcases le_or_gt (lastExponent num den) 0 with inside | beyond
  · obtain ⟨m, hm⟩ := exists_multiple n inside
    rw [hm, ← le_div_iff₀ unit] at h
    have bound : (m : ℚ) < roundAt num den (lastExponent num den) + 1 := by linarith
    have bound : m ≤ roundAt num den (lastExponent num den) :=
      Nat.lt_succ_iff.mp (by exact_mod_cast bound)
    rw [hm, value, nearest]
    gcongr
  · -- the quotient has more bits before the point than the whole number
    have bits := (lastExponent_bounds hn hd).1
    rw [← le_div_iff₀ unit] at bits
    have bound : (2 ^ (52 : Nat) : ℚ) < roundAt num den (lastExponent num den) + 1 := by linarith
    have bound : 2 ^ (52 : Nat) ≤ roundAt num den (lastExponent num den) :=
      Nat.lt_succ_iff.mp (by exact_mod_cast bound)
    have power : (2 : ℚ) ^ (1 : Int) ≤ 2 ^ lastExponent num den :=
      zpow_le_zpow_right₀ (by norm_num) (by omega)
    calc (n : ℚ) ≤ wholes := by exact_mod_cast small.le
      _ = (2 ^ (52 : Nat) : Nat) * 2 ^ (1 : Int) := by norm_num [wholes, precision]
      _ ≤ (nearest num den).value := by
        rw [value, nearest]
        gcongr

/-- A rounded number below that bound is a fraction of no more bits by a power of two. -/
theorem exists_bits (hd : 0 < den) (h : (nearest num den).value < wholes) :
    ∃ m i : Nat, (nearest num den).value * 2 ^ i = m ∧ m < wholes := by
  rcases Nat.eq_zero_or_pos num with rfl | hn
  · exact ⟨0, 0, by simp [value, nearest, roundAt_zero hd], by simp [wholes]⟩
  have unit : (0 : ℚ) < 2 ^ lastExponent num den := by positivity
  have near := (roundAt_near num hd (lastExponent num den)).1
  have bits := (lastExponent_bounds hn hd).2
  rw [← div_lt_iff₀ unit] at bits
  have bound : (roundAt num den (lastExponent num den) : ℚ) < 2 ^ (53 : Nat) + 1 := by linarith
  have bound : roundAt num den (lastExponent num den) ≤ wholes :=
    Nat.lt_succ_iff.mp (by exact_mod_cast bound)
  simp only [value, nearest] at h ⊢
  generalize roundAt num den (lastExponent num den) = r at *
  rcases le_or_gt 0 (lastExponent num den) with whole | fraction
  · obtain ⟨i, hi⟩ := Int.eq_ofNat_of_zero_le whole
    rw [hi, zpow_natCast] at h ⊢
    exact ⟨r * 2 ^ i, 0, by push_cast; ring, by exact_mod_cast h⟩
  · obtain ⟨i, hi⟩ : ∃ i : Nat, lastExponent num den = -(i + 1 : Nat) :=
      ⟨(lastExponent num den).natAbs - 1, by omega⟩
    rw [hi, zpow_neg, zpow_natCast]
    rcases bound.lt_or_eq with below | top
    · exact ⟨r, i + 1, by field_simp, below⟩
    -- rounding up made it a power of two
    · refine ⟨2 ^ (52 : Nat), i, ?_, by norm_num [wholes, precision]⟩
      rw [top, pow_succ]
      norm_num [wholes, precision]
      field_simp
      norm_num

-- ---------------------------------------------------------------------------
-- Quotients of few bits
-- ---------------------------------------------------------------------------

section

variable {p q : Nat} (hd : 0 < den) (hq : 0 < q) (same : num * q = p * den)

include hd hq same

theorem quotient_eq : (num / den : ℚ) = p / q := by
  have denPositive : (0 : ℚ) < den := by exact_mod_cast hd
  have qPositive : (0 : ℚ) < q := by exact_mod_cast hq
  rw [div_eq_div_iff denPositive.ne' qPositive.ne']
  exact_mod_cast same

variable (few : p < wholes)

include few

/-- Rounding moves such a quotient by less than its distance to any whole number but itself. -/
theorem value_nearest_lt_of_lt (h : num < n * den) : (nearest num den).value < n := by
  have positive : (0 : ℚ) < q := by exact_mod_cast hq
  have gap : p < n * q := by
    refine Nat.lt_of_mul_lt_mul_right (a := den) ?_
    rw [← same, Nat.mul_right_comm]
    exact Nat.mul_lt_mul_of_pos_right h hq
  have gap : (p : ℚ) + 1 ≤ n * q := by exact_mod_cast gap
  have few : (p : ℚ) / 2 ^ (53 : Nat) < 1 := (div_lt_one (by positivity)).mpr (by exact_mod_cast few)
  refine lt_of_le_of_lt (value_nearest_le num hd) ?_
  rw [quotient_eq hd hq same, div_mul_eq_mul_div, div_lt_iff₀ positive]
  linarith

theorem lt_value_nearest_of_lt (h : n * den < num) : (n : ℚ) < (nearest num den).value := by
  have positive : (0 : ℚ) < q := by exact_mod_cast hq
  have gap : n * q < p := by
    refine Nat.lt_of_mul_lt_mul_right (a := den) ?_
    rw [← same, Nat.mul_right_comm]
    exact Nat.mul_lt_mul_of_pos_right h hq
  have gap : (n : ℚ) * q + 1 ≤ p := by exact_mod_cast gap
  have few : (p : ℚ) / 2 ^ (53 : Nat) < 1 := (div_lt_one (by positivity)).mpr (by exact_mod_cast few)
  refine lt_of_lt_of_le ?_ (value_nearest_near (Nat.zero_lt_of_lt h) hd).2
  rw [quotient_eq hd hq same, div_mul_eq_mul_div, lt_div_iff₀ positive]
  linarith

theorem floor_nearest (small : num / den < wholes) : (nearest num den).floor = num / den := by
  refine Nat.le_antisymm (Nat.le_of_lt_succ ?_) ?_
  · rw [floor_lt_iff]
    exact value_nearest_lt_of_lt hd hq same few (Nat.lt_mul_of_div_lt (Nat.lt_succ_self _) hd)
  · rw [le_floor_iff]
    exact le_value_nearest_of_le hd (Nat.div_mul_le_self num den) small

end

/-- To divide a rounded number by a whole number and round again keeps the whole part. -/
theorem floor_nearest_div (hd : 0 < den) (hk : 0 < k) (h : (nearest num den).value < wholes) :
    (nearest (nearest num den).ratio.1 ((nearest num den).ratio.2 * k)).floor =
      (nearest num den).floor / k := by
  obtain ⟨m, i, bits, few⟩ := exists_bits hd h
  generalize nearest num den = b at *
  have whole : b.floor < wholes := (floor_lt_iff b).mpr h
  have quotient : b.ratio.1 / (b.ratio.2 * k) = b.floor / k := (Nat.div_div_eq_div_mul ..).symm
  have ratio : b.ratio.1 * 2 ^ i = m * b.ratio.2 := by
    have positive : (0 : ℚ) < b.ratio.2 := by exact_mod_cast b.ratio_pos
    rw [← b.value_ratio, div_mul_eq_mul_div, div_eq_iff positive.ne'] at bits
    exact_mod_cast bits
  have same : b.ratio.1 * (2 ^ i * k) = m * (b.ratio.2 * k) := by
    rw [← Nat.mul_assoc, ratio, Nat.mul_assoc]
  rw [← quotient]
  exact floor_nearest (Nat.mul_pos b.ratio_pos hk) (by positivity) same few
    (quotient ▸ lt_of_le_of_lt (Nat.div_le_self _ _) whole)

end Binary

end Federation
