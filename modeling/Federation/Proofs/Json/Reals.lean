import Federation.Proofs.Json.Numerals
import Federation.Proofs.Number.Scaling
import Federation.Proofs.Number.Shortest

/-!
# Doubles that can be read

What is written for a finite double is a numeral, and that numeral has a value. It need not be the
same double, as its digits are scaled in doubles when they are read; but it is never one that is too
large, not even for the greatest of them.
-/

namespace Federation.Number

open Double (Decimal)

-- ---------------------------------------------------------------------------
-- Significands
-- ---------------------------------------------------------------------------

theorem mul_pow_le_ofDigitChars (digits : List Char) (start : Nat) :
    start * 10 ^ digits.length ≤ Nat.ofDigitChars 10 digits start := by
  induction digits generalizing start with
  | nil => simp
  | cons c digits ih =>
    rw [Nat.ofDigitChars_cons, List.length_cons, Nat.pow_succ]
    refine Nat.le_trans ?_ (ih _)
    rw [Nat.mul_comm (10 ^ digits.length), ← Nat.mul_assoc]
    exact Nat.mul_le_mul_right _ (by omega)

theorem ofDigitChars_lt {digits : List Char} (hd : ∀ c ∈ digits, c.isDigit = true) (start : Nat) :
    Nat.ofDigitChars 10 digits start < (start + 1) * 10 ^ digits.length := by
  induction digits generalizing start with
  | nil => simp
  | cons c digits ih =>
    have digit : c.toNat - '0'.toNat ≤ 9 := by
      have hc := hd c List.mem_cons_self
      simp only [Char.isDigit, Bool.and_eq_true, decide_eq_true_eq, ge_iff_le] at hc
      have high : c.toNat ≤ 57 := hc.2
      have zero : '0'.toNat = 48 := rfl
      omega
    rw [Nat.ofDigitChars_cons, List.length_cons, Nat.pow_succ]
    refine Nat.lt_of_lt_of_le (ih (fun d hmem => hd d (List.mem_cons_of_mem _ hmem)) _) ?_
    rw [Nat.mul_comm (10 ^ digits.length), ← Nat.mul_assoc]
    exact Nat.mul_le_mul_right _ (by omega)

theorem accumulate_lt (digits : List Char) {s : Nat} (h : s < UInt64.size) :
    (accumulate s digits).1 < UInt64.size := by
  induction digits generalizing s with
  | nil => exact h
  | cons c digits ih =>
    rw [accumulate]
    dsimp only
    split
    · rename_i fits
      exact ih fits
    · exact h

theorem accumulate_le (digits : List Char) (start : Nat) :
    (accumulate start digits).2 ≤ digits.length ∧
      (accumulate start digits).1 * 10 ^ (digits.length - (accumulate start digits).2) ≤
        Nat.ofDigitChars 10 digits start := by
  induction digits generalizing start with
  | nil => simp [accumulate]
  | cons c digits ih =>
    rw [accumulate]
    dsimp only
    split
    · obtain ⟨used, bound⟩ := ih (start * 10 + (c.toNat - '0'.toNat))
      rw [Nat.ofDigitChars_cons, List.length_cons, Nat.add_sub_add_right, Nat.mul_comm 10]
      exact ⟨Nat.succ_le_succ used, bound⟩
    · exact ⟨Nat.zero_le _, mul_pow_le_ofDigitChars _ _⟩

theorem accumulate_short {digits : List Char} (hd : ∀ c ∈ digits, c.isDigit = true)
    (short : digits.length ≤ 16) :
    accumulate 0 digits = (Nat.ofDigitChars 10 digits 0, digits.length) := by
  apply accumulate_eq
  calc Nat.ofDigitChars 10 digits 0 < (0 + 1) * 10 ^ digits.length := ofDigitChars_lt hd 0
    _ ≤ 10 ^ 16 := by
      rw [Nat.zero_add, Nat.one_mul]
      exact Nat.pow_le_pow_right (by decide) short
    _ ≤ UInt64.size := by decide

theorem decimalValue_toDigits (n : Nat) : decimalValue (Nat.toDigits 10 n) = n :=
  Nat.ofDigitChars_ten_toDigits

namespace Numeral

def power (n : Numeral) : Int :=
  match n.exponent with
  | none => 0
  | some (isNegative, digits) =>
    if isNegative then -(decimalValue digits : Int) else decimalValue digits

theorem isSome_value? {n : Numeral} (hd : ∀ c ∈ n.whole, c.isDigit = true)
    (short : n.whole.length ≤ 16)
    (h : Binary.Scalable (accumulate (Nat.ofDigitChars 10 n.whole 0) n.fraction).1
      (n.power - (accumulate (Nat.ofDigitChars 10 n.whole 0) n.fraction).2)) :
    n.value?.isSome = true := by
  have whole := accumulate_short hd short
  have fits : Nat.ofDigitChars 10 n.whole 0 < UInt64.size := by
    have := accumulate_lt n.whole (s := 0) (by decide)
    rwa [whole] at this
  have scaled := Binary.isSome_scale (accumulate_lt n.fraction fits) h n.negative
  have exponent : ((n.whole.length - n.whole.length : Nat) : Int) -
      (accumulate (Nat.ofDigitChars 10 n.whole 0) n.fraction).2 + n.power =
        n.power - (accumulate (Nat.ofDigitChars 10 n.whole 0) n.fraction).2 := by
    omega
  rw [← exponent] at scaled
  unfold value?
  simp only [whole]
  split
  · rfl
  · split
    · rfl
    · rw [Option.isSome_map]
      exact scaled

theorem isSome_value?_of_nonpos {n : Numeral} (hd : ∀ c ∈ n.whole, c.isDigit = true)
    (short : n.whole.length ≤ 16) (h : n.power ≤ 0) : n.value?.isSome = true := by
  refine isSome_value? hd short (Binary.scalable_of_nonpos (accumulate_lt _ ?_) (by omega))
  have := accumulate_lt n.whole (s := 0) (by decide)
  rwa [accumulate_short hd short] at this

end Numeral

-- ---------------------------------------------------------------------------
-- Scientific numerals
-- ---------------------------------------------------------------------------

/-- One digit before the point, and the power of ten that makes up for it. -/
def scientific (negative : Bool) (decimal : Decimal) : Numeral :=
  let digits := Nat.toDigits 10 decimal.digits
  let power := (digits.length : Int) + decimal.exponent - 1
  ⟨negative, digits.take 1, digits.drop 1, some (power < 0, Nat.toDigits 10 power.natAbs)⟩

section Scientific

variable (negative : Bool) (decimal : Decimal)

theorem proper_scientific : (scientific negative decimal).Proper := by
  obtain ⟨c, rest, heq, hc⟩ := toDigits_cons decimal.digits
  obtain ⟨d, more, hpower, -⟩ := toDigits_cons
    (((Nat.toDigits 10 decimal.digits).length : Int) + decimal.exponent - 1).natAbs
  have all := isDigit_toDigits decimal.digits
  refine ⟨fun c hc => all c (List.mem_of_mem_take hc), ?_, ?_,
    fun c hc => all c (List.mem_of_mem_drop hc), ?_⟩
  · simp [scientific, heq]
  · simp [scientific, heq]
  · rintro isNegative digits ⟨⟩
    exact ⟨by simp [hpower], isDigit_toDigits _⟩

theorem power_scientific : (scientific negative decimal).power =
    ((Nat.toDigits 10 decimal.digits).length : Int) + decimal.exponent - 1 := by
  unfold Numeral.power scientific
  dsimp only
  rw [decimalValue_toDigits]
  split
  · rename_i below
    have := of_decide_eq_true below
    omega
  · rename_i above
    have := of_decide_eq_false (Bool.eq_false_iff.mpr above)
    omega

theorem significand_scientific_le :
    let n := scientific negative decimal
    let read := accumulate (Nat.ofDigitChars 10 n.whole 0) n.fraction
    (read.1 : ℚ) * 10 ^ (n.power - read.2) ≤ decimal.value := by
  intro n read
  obtain ⟨c, rest, heq, -⟩ := toDigits_cons decimal.digits
  have written :
      Nat.ofDigitChars 10 n.fraction (Nat.ofDigitChars 10 n.whole 0) = decimal.digits := by
    have whole : Nat.ofDigitChars 10 (n.whole ++ n.fraction) 0 = decimal.digits := by
      rw [show n.whole ++ n.fraction = Nat.toDigits 10 decimal.digits from List.take_append_drop ..]
      exact Nat.ofDigitChars_ten_toDigits
    rwa [Nat.ofDigitChars_append] at whole
  obtain ⟨used, bound⟩ : read.2 ≤ n.fraction.length ∧
      read.1 * 10 ^ (n.fraction.length - read.2) ≤ decimal.digits := by
    rw [← written]
    exact accumulate_le n.fraction (Nat.ofDigitChars 10 n.whole 0)
  have length : (n.fraction.length : Int) + 1 = (Nat.toDigits 10 decimal.digits).length := by
    have : n.fraction = rest := by
      show (Nat.toDigits 10 decimal.digits).drop 1 = rest
      rw [heq]
      rfl
    rw [this, heq, List.length_cons]
    omega
  have power :
      n.power - read.2 = ((n.fraction.length - read.2 : Nat) : Int) + decimal.exponent := by
    have given : n.power = ((Nat.toDigits 10 decimal.digits).length : Int) + decimal.exponent - 1 :=
      power_scientific negative decimal
    omega
  have bound : (read.1 * 10 ^ (n.fraction.length - read.2) : ℚ) ≤ decimal.digits := by
    exact_mod_cast bound
  rw [power, zpow_add₀ (by norm_num), zpow_natCast, ← mul_assoc]
  unfold Decimal.value
  gcongr

theorem isSome_value?_scientific
    (h : decimal.value * (1 + 1 / 2 ^ (53 : Nat)) ^ 2 <
      (2 ^ (53 : Nat) - 1 / 2) * 2 ^ (971 : Nat)) :
    (scientific negative decimal).value?.isSome = true := by
  have proper := proper_scientific negative decimal
  refine Numeral.isSome_value? proper.whole ?_ ?_
  · exact Nat.le_trans (List.length_take_le ..) (by decide)
  · have bound := significand_scientific_le negative decimal
    dsimp only at bound
    generalize (scientific negative decimal).power - _ = exponent at bound ⊢
    rcases lt_or_ge exponent 0 with below | above
    · exact .inl below
    · obtain ⟨n, rfl⟩ := Int.eq_ofNat_of_zero_le above
      rw [zpow_natCast] at bound
      refine .inr (lt_of_le_of_lt ?_ h)
      rw [Int.natAbs_natCast]
      gcongr

end Scientific

-- ---------------------------------------------------------------------------
-- The greatest doubles
-- ---------------------------------------------------------------------------

theorem exponentField_eq (d : Double) : d.exponentField = d.bits.toNat / 2 ^ 52 % 2 ^ 11 := by
  rw [Double.exponentField, UInt64.toNat_and, UInt64.toNat_shiftRight,
    ← Nat.and_two_pow_sub_one_eq_mod,
    ← Nat.shiftRight_eq_div_pow]
  rfl

theorem fraction_eq (d : Double) : d.fraction = d.bits.toNat % 2 ^ 52 := by
  rw [Double.fraction, UInt64.toNat_and, ← Nat.and_two_pow_sub_one_eq_mod]
  rfl

/-- The doubles that are so near to the end that only their own digits tell. -/
def greatest : List Double :=
  [⟨0x7FEFFFFFFFFFFFFF⟩, ⟨0x7FEFFFFFFFFFFFFE⟩, ⟨0xFFEFFFFFFFFFFFFF⟩, ⟨0xFFEFFFFFFFFFFFFE⟩]

theorem isSome_value?_greatest :
    ∀ d ∈ greatest, (scientific d.isNegative d.shortest).value?.isSome = true := by
  decide +kernel

theorem range_of_isFinite {d : Double} (h : d.isFinite = true) :
    d.mantissa < 2 ^ 53 ∧ d.exponent ≤ 971 ∧
      (d.exponent = 971 → d.mantissa ≤ 2 ^ 53 - 3 ∨ d ∈ greatest) := by
  have field := exponentField_eq d
  have fraction := fraction_eq d
  have finite : d.exponentField ≠ 0x7FF := by simpa [Double.isFinite] using h
  have mantissa :
      d.mantissa = if d.exponentField = 0 then d.fraction else d.fraction + 2 ^ 52 := rfl
  have exponent : d.exponent = (max d.exponentField 1 : Nat) - 1075 := rfl
  have bound : d.bits.toNat < 2 ^ 64 := d.bits.toNat_lt
  rw [mantissa, exponent]
  refine ⟨?_, by omega, fun top => ?_⟩
  · split <;> omega
  · have here : d.exponentField = 2046 := by omega
    rw [if_neg (by omega)]
    by_cases far : d.fraction + 2 ^ 52 ≤ 2 ^ 53 - 3
    · exact .inl far
    · right
      have bits : d.bits.toNat = 0x7FEFFFFFFFFFFFFF ∨ d.bits.toNat = 0x7FEFFFFFFFFFFFFE ∨
          d.bits.toNat = 0xFFEFFFFFFFFFFFFF ∨ d.bits.toNat = 0xFFEFFFFFFFFFFFFE := by
        omega
      have known {k : UInt64} (h : d.bits.toNat = k.toNat) : d = ⟨k⟩ := by
        rw [← UInt64.toNat_inj.mp h]
      rcases bits with h | h | h | h
      · exact known (k := 0x7FEFFFFFFFFFFFFF) h ▸ by decide
      · exact known (k := 0x7FEFFFFFFFFFFFFE) h ▸ by decide
      · exact known (k := 0xFFEFFFFFFFFFFFFF) h ▸ by decide
      · exact known (k := 0xFFEFFFFFFFFFFFFE) h ▸ by decide

theorem isSome_value?_finite {d : Double} (h : d.isFinite = true) :
    (scientific d.isNegative d.shortest).value?.isSome = true := by
  obtain ⟨bits, range, top⟩ := range_of_isFinite h
  by_cases last : d ∈ greatest
  · exact isSome_value?_greatest d last
  apply isSome_value?_scientific
  have written := Double.value_shortest_le d
  have positive : (0 : ℚ) < 2 ^ (970 : Nat) := by positivity
  have bits : (d.mantissa : ℚ) + 1 ≤ 2 ^ (53 : Nat) := by exact_mod_cast bits
  have power : (2 : ℚ) ^ (971 : Nat) = 2 * 2 ^ (970 : Nat) := pow_succ' 2 970
  rcases eq_or_ne d.exponent 971 with same | other
  · have far : (d.mantissa : ℚ) + 3 ≤ 2 ^ (53 : Nat) := by
      have := (top same).resolve_right last
      exact_mod_cast (by omega : d.mantissa + 3 ≤ 2 ^ 53)
    have value : d.shortest.value ≤ (d.mantissa + 1 / 2) * 2 ^ (971 : Nat) := by
      rw [same] at written
      exact written
    have short : (d.mantissa + 1 / 2 : ℚ) * (1 + 1 / 2 ^ (53 : Nat)) ^ 2 <
        2 ^ (53 : Nat) - 1 / 2 := by
      norm_num at far ⊢
      linarith
    rw [power] at value ⊢
    generalize (2 : ℚ) ^ (970 : Nat) = unit at *
    calc d.shortest.value * (1 + 1 / 2 ^ (53 : Nat)) ^ 2
        ≤ (d.mantissa + 1 / 2 : ℚ) * (2 * unit) * (1 + 1 / 2 ^ (53 : Nat)) ^ 2 := by gcongr
      _ = (d.mantissa + 1 / 2 : ℚ) * (1 + 1 / 2 ^ (53 : Nat)) ^ 2 * (2 * unit) := by ring
      _ < (2 ^ (53 : Nat) - 1 / 2) * (2 * unit) := by gcongr
  · have smaller : (2 : ℚ) ^ d.exponent ≤ 2 ^ (970 : Nat) := by
      rw [← zpow_natCast]
      exact zpow_le_zpow_right₀ (by norm_num) (by push_cast; omega)
    have short : (d.mantissa + 1 / 2 : ℚ) * (1 + 1 / 2 ^ (53 : Nat)) ^ 2 <
        (2 ^ (53 : Nat) - 1 / 2) * 2 := by
      norm_num at bits ⊢
      linarith
    rw [power]
    generalize (2 : ℚ) ^ (970 : Nat) = unit at *
    have value : d.shortest.value ≤ (d.mantissa + 1 / 2) * unit :=
      written.trans
        (mul_le_mul_of_nonneg_left smaller (add_nonneg (Nat.cast_nonneg _) (by norm_num)))
    calc d.shortest.value * (1 + 1 / 2 ^ (53 : Nat)) ^ 2
        ≤ (d.mantissa + 1 / 2 : ℚ) * unit * (1 + 1 / 2 ^ (53 : Nat)) ^ 2 := by gcongr
      _ = (d.mantissa + 1 / 2 : ℚ) * (1 + 1 / 2 ^ (53 : Nat)) ^ 2 * unit := by ring
      _ < (2 ^ (53 : Nat) - 1 / 2) * 2 * unit := by gcongr
      _ = (2 ^ (53 : Nat) - 1 / 2) * (2 * unit) := by ring

-- ---------------------------------------------------------------------------
-- Every finite double
-- ---------------------------------------------------------------------------

/-- All digits stand before the point or behind it, with zeros to fill up, and there is no power. -/
theorem isSome_value?_plain {n : Numeral} (proper : n.Proper) (short : n.whole.length ≤ 16)
    (plain : n.exponent = none) : n.value?.isSome = true := by
  refine Numeral.isSome_value?_of_nonpos proper.whole short ?_
  rw [Numeral.power, plain]

theorem isDigit_zeros {count : Nat} : ∀ c ∈ List.replicate count '0', c.isDigit = true := by
  intro c hc
  rw [List.eq_of_mem_replicate hc]
  decide

theorem forall_mem_append_isDigit {a b : List Char} (ha : ∀ c ∈ a, c.isDigit = true)
    (hb : ∀ c ∈ b, c.isDigit = true) : ∀ c ∈ a ++ b, c.isDigit = true :=
  List.forall_mem_append.mpr ⟨ha, hb⟩

section

attribute [local simp] Numeral.text Numeral.signText Numeral.fractionText Numeral.exponentText

theorem exists_numeral_realText {d : Double} (h : d.isFinite = true) :
    ∃ n : Numeral, n.Proper ∧ n.text = realText d ∧ n.value?.isSome = true := by
  have digits := isDigit_toDigits d.shortest.digits
  have zero := d.exponent_shortest_of_digits
  obtain ⟨first, others, heq, leading⟩ := toDigits_cons d.shortest.digits
  -- The digits begin with a zero only for zero itself, which has no power of ten.
  have begins : first = '0' → others = [] ∧ d.shortest.exponent = 0 :=
    fun same => ⟨(leading same).1, zero (leading same).2⟩
  have finite := isSome_value?_finite h
  have scientific_proper := proper_scientific d.isNegative d.shortest
  unfold realText
  dsimp only
  generalize hsign : (if d.isNegative = true then ['-'] else []) = sign
  split
  · have proper : Numeral.Proper ⟨d.isNegative, ['0'], ['0'], none⟩ :=
      ⟨by simp, by simp, by simp, by simp, by simp⟩
    exact ⟨_, proper, by simp [hsign], isSome_value?_plain proper (by simp) rfl⟩
  generalize hdigits : Nat.toDigits 10 d.shortest.digits = ds at *
  subst heq
  split
  case isTrue range =>
    have proper : Numeral.Proper ⟨d.isNegative, (first :: others) ++
        List.replicate d.shortest.exponent.toNat '0', ['0'], none⟩ := by
      refine ⟨forall_mem_append_isDigit digits isDigit_zeros, by simp, fun same => ?_,
        by simp, by simp⟩
      have same : first = '0' := by simpa using same
      obtain ⟨alone, power⟩ := begins same
      simp [same, alone, power]
    refine ⟨_, proper, by simp [hsign], isSome_value?_plain proper ?_ rfl⟩
    simp only [List.length_append, List.length_replicate]
    unfold plainTo at range
    omega
  case isFalse outside =>
  split
  case isTrue range =>
    unfold plainTo at outside range
    obtain ⟨count, hcount⟩ : ∃ count : Nat,
        (((first :: others).length : Int) + d.shortest.exponent).toNat = count + 1 :=
      ⟨_, (Nat.succ_pred_eq_of_pos (by omega)).symm⟩
    have inside : count < others.length := by
      rw [List.length_cons] at *
      omega
    have proper : Numeral.Proper ⟨d.isNegative, (first :: others).take (count + 1),
        (first :: others).drop (count + 1), none⟩ := by
      refine ⟨fun c hc => digits c (List.mem_of_mem_take hc), by simp, fun same => ?_,
        fun c hc => digits c (List.mem_of_mem_drop hc), by simp⟩
      obtain ⟨alone, -⟩ := begins (by simpa using same)
      simp [alone] at inside
    refine ⟨_, proper, ?_, isSome_value?_plain proper ?_ rfl⟩
    · have more : ¬ others.length ≤ count := Nat.not_le.mpr inside
      simp only [List.length_cons, Nat.cast_add, Nat.cast_one] at hcount
      simp [hsign, hcount, more]
    · refine Nat.le_trans (List.length_take_le ..) ?_
      omega
  case isFalse far =>
  split
  case isTrue range =>
    have proper : Numeral.Proper ⟨d.isNegative, ['0'], List.replicate
        (((first :: others).length : Int) + d.shortest.exponent).natAbs '0' ++
          (first :: others), none⟩ :=
      ⟨by simp, by simp, by simp, forall_mem_append_isDigit isDigit_zeros digits, by simp⟩
    exact ⟨_, proper, by simp [hsign], isSome_value?_plain proper (by simp) rfl⟩
  case isFalse away =>
    refine ⟨_, scientific_proper, ?_, finite⟩
    unfold scientific
    rw [hdigits]
    cases others <;> simp [hsign]

end

theorem IsFinite.legible {n : Number} (h : n.IsFinite) : n.Legible := by
  cases n with
  | int value => exact (IsInteger.readsBack ⟨value, rfl, h⟩).legible
  | real d =>
    obtain ⟨numeral, proper, text, value⟩ := exists_numeral_realText h
    exact legible_of_numeral proper text value

-- ---------------------------------------------------------------------------
-- What can be read at all
-- ---------------------------------------------------------------------------

theorem isFinite_ofBinary? {b : Binary} {d : Double}
    (h : Double.ofBinary? negative b = some d) : d.isFinite = true := by
  unfold Double.ofBinary? at h
  split at h
  · rename_i small
    obtain rfl := Option.some.inj h
    unfold Double.infinityBits at small
    generalize hsign : (if negative = true then 1 <<< 63 else 0 : Nat) = sign
    have signs : sign = 0 ∨ sign = 2 ^ 63 := by
      rw [← hsign]
      split <;> simp
    have bits : (Double.mk (.ofNat (b.magnitudeBits + sign))).bits.toNat =
        b.magnitudeBits + sign := by
      apply UInt64.toNat_ofNat_of_lt
      show _ < 2 ^ 64
      omega
    rw [Double.isFinite, bne_iff_ne, exponentField_eq, bits]
    omega
  · cases h

theorem isFinite_of_value? {numeral : Numeral} (h : numeral.value? = some n) : n.IsFinite := by
  have whole := accumulate_lt numeral.whole (s := 0) (by decide)
  have size : UInt64.size = 18446744073709551616 := rfl
  unfold Numeral.value? at h
  dsimp only at h
  split at h
  · obtain rfl := Option.some.inj h
    refine ⟨by omega, ?_⟩
    omega
  · split at h
    · rename_i small
      obtain rfl := Option.some.inj h
      simp only [Bool.and_eq_true, decide_eq_true_eq] at small
      constructor <;> omega
    · obtain ⟨d, scaled, rfl⟩ := Option.map_eq_some_iff.mp h
      obtain ⟨b, -, hd⟩ := Option.bind_eq_some_iff.mp scaled
      exact isFinite_ofBinary? hd

theorem ReadsBack.isFinite {n : Number} (h : n.ReadsBack) : n.IsFinite := by
  obtain ⟨numeral, -, value⟩ := h [] ends_nil
  exact isFinite_of_value? value

end Federation.Number
