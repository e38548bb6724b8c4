import Federation.Proofs.Number.Whole
import Federation.Proofs.Supervision.Runs

/-!
# How delays grow

Without rounding, delays grow by the multiplier until they have reached the greatest delay. The
delays that are worked out with roundings do not decrease or pass the greatest one either, as long
as that has no more nanoseconds than the precision holds; if the multiplier has few bits as well,
they are the same.
-/

namespace Federation

theorem Double.ratio_pos (d : Double) : 0 < d.ratio.2 := Binary.ratio_pos ⟨d.mantissa, d.exponent⟩

theorem Double.mantissa_ne_zero {d : Double} (h : 0 < d.ratio.1) : d.mantissa ≠ 0 := by
  intro zero
  unfold ratio at h
  split at h <;> simp [zero] at h

namespace BackoffPolicy

variable {policy : BackoffPolicy} {current : Nat}

/-- The first delay takes time and does not exceed the greatest; the multiplier is finite and greater
than one. -/
structure Sound (policy : BackoffPolicy) : Prop where
  positive : 0 < policy.initial.nanos
  fits : policy.initial.nanos ≤ policy.max.nanos
  finite : policy.multiplier.isFinite = true
  unsigned : policy.multiplier.isNegative = false
  above : policy.multiplier.ratio.2 < policy.multiplier.ratio.1

structure Paced (policy : BackoffPolicy) (waits : Nat → Nat) : Prop where
  first : waits 0 = policy.initial.nanos
  grows : ∀ n, waits n ≤ waits (n + 1)
  capped : ∀ n, waits n ≤ policy.max.nanos

theorem Paced.positive {waits : Nat → Nat} (h : policy.Paced waits) (sound : policy.Sound) (n : Nat) :
    0 < waits n := by
  induction n with
  | zero => exact h.first ▸ sound.positive
  | succ n ih => exact Nat.lt_of_lt_of_le ih (h.grows n)

theorem paced_of_step (sound : policy.Sound) {waits : Nat → Nat}
    (first : waits 0 = policy.initial.nanos)
    (step : ∀ n, waits n ≤ policy.max.nanos →
      waits n ≤ waits (n + 1) ∧ waits (n + 1) ≤ policy.max.nanos) : policy.Paced waits := by
  have capped (n : Nat) : waits n ≤ policy.max.nanos := by
    induction n with
    | zero => exact first ▸ sound.fits
    | succ n ih => exact (step n ih).2
  exact ⟨first, fun n => (step n (capped n)).1, capped⟩

theorem delaysFrom_eq (policy : BackoffPolicy) (n m : Nat) :
    policy.delaysFrom n (policy.delay m) = (List.range n).map fun i => policy.delay (m + i) := by
  induction n generalizing m with
  | zero => rfl
  | succ n ih =>
    have later (i : Nat) : policy.delay (m + 1 + i) = policy.delay (m + (i + 1)) :=
      congrArg policy.delay (by omega)
    rw [delaysFrom, List.range_succ_eq_map, List.map_cons, List.map_map]
    exact congrArg (policy.delay m :: ·) ((ih (m + 1)).trans (by simp [Function.comp_def, later]))

theorem delays_eq (policy : BackoffPolicy) (n : Nat) :
    policy.delays n = (List.range n).map policy.delay :=
  (policy.delaysFrom_eq n 0).trans (by simp)

-- ---------------------------------------------------------------------------
-- Exact delays
-- ---------------------------------------------------------------------------

def exactNext (policy : BackoffPolicy) (current : Nat) : Nat :=
  let (num, den) := policy.multiplier.ratio
  if policy.max.nanos * den ≤ current * num then policy.max.nanos else current * num / den

def exactDelay (policy : BackoffPolicy) : Nat → Nat
  | 0 => policy.initial.nanos
  | n + 1 => policy.exactNext (policy.exactDelay n)

theorem exactNext_bounds (sound : policy.Sound) (h : current ≤ policy.max.nanos) :
    current ≤ policy.exactNext current ∧ policy.exactNext current ≤ policy.max.nanos := by
  have positive := policy.multiplier.ratio_pos
  simp only [exactNext]
  split
  case isTrue => exact ⟨h, Nat.le_refl _⟩
  case isFalse free =>
    constructor
    · rw [Nat.le_div_iff_mul_le positive]
      exact Nat.mul_le_mul_left current sound.above.le
    · rw [Nat.not_le, Nat.mul_comm policy.max.nanos] at free
      exact Nat.div_le_of_le_mul free.le

theorem paced_exactDelay (sound : policy.Sound) : policy.Paced policy.exactDelay :=
  paced_of_step sound rfl fun _ => exactNext_bounds sound

-- ---------------------------------------------------------------------------
-- Rounded delays
-- ---------------------------------------------------------------------------

open Binary

theorem nanosOf_eq {d : Duration} (small : d.nanos < wholes) : nanosOf d = d.nanos := by
  have fits {n : Nat} (h : n ≤ d.nanos) : nearestNat n = n :=
    nearestNat_of_lt (Nat.lt_of_le_of_lt h small)
  have split : d.seconds * Duration.nanosPerSecond + d.subsecond = d.nanos := Nat.div_add_mod' _ _
  have seconds : d.seconds ≤ d.nanos := Nat.div_le_self _ _
  have product : d.seconds * Duration.nanosPerSecond ≤ d.nanos := Nat.div_mul_le_self _ _
  rw [nanosOf, fits seconds, fits product, split, fits (Nat.le_refl _)]

theorem nanos_ofNanos {num den : Nat} (hd : 0 < den) (h : (nearest num den).value < wholes) :
    (ofNanos (nearest num den)).nanos = (nearest num den).floor := by
  have whole : (nearest num den).floor < wholes := (floor_lt_iff _).mpr h
  have word : (nearest num den).floor ≤ UInt64.size - 1 :=
    Nat.le_trans whole.le (by decide)
  have seconds : (nearest num den).floor / Duration.nanosPerSecond ≤ UInt64.size - 1 :=
    Nat.le_trans (Nat.div_le_self _ _) word
  simp only [ofNanos]
  rw [floor_nearest_div hd (by decide) h, Nat.min_eq_left seconds, Nat.min_eq_left word]
  exact Nat.div_add_mod' _ _

section

variable {d : Duration} (sound : policy.Sound) (small : policy.max.nanos < wholes)
  (h : d.nanos ≤ policy.max.nanos)

include sound small h

theorem isCapped_iff : policy.isCapped d = true ↔
    (nearest (policy.max.nanos * policy.multiplier.ratio.2) policy.multiplier.ratio.1).value ≤
      d.nanos := by
  have significant := Double.mantissa_ne_zero (Nat.zero_lt_of_lt sound.above)
  unfold isCapped
  simp only [significant, if_false, sound.unsigned, sound.finite, Bool.not_true, Bool.or_false,
    Bool.false_eq_true, nanosOf_eq small, nanosOf_eq (Nat.lt_of_le_of_lt h small), decide_eq_true_eq]
  generalize nearest _ _ = top
  have positive : (0 : ℚ) < top.ratio.2 := by exact_mod_cast top.ratio_pos
  rw [← top.value_ratio, div_le_iff₀ positive]
  exact_mod_cast Iff.rfl

/-- A delay that does not count as the greatest is multiplied, rounded, and cut to nanoseconds. -/
theorem nanos_next (free : policy.isCapped d ≠ true) :
    d.nanos * policy.multiplier.ratio.1 < policy.max.nanos * policy.multiplier.ratio.2 ∧
      (policy.next d).nanos = (nearest (d.nanos * policy.multiplier.ratio.1)
        policy.multiplier.ratio.2).floor ∧
      (nearest (d.nanos * policy.multiplier.ratio.1) policy.multiplier.ratio.2).value ≤
        policy.max.nanos := by
  have own := Nat.lt_of_le_of_lt h small
  have hd := policy.multiplier.ratio_pos
  have below : d.nanos * policy.multiplier.ratio.1 <
      policy.max.nanos * policy.multiplier.ratio.2 :=
    Nat.lt_of_not_le fun reached => free ((isCapped_iff sound small h).mpr
      (value_nearest_le_of_le (Nat.zero_lt_of_lt sound.above) reached own))
  have rounded : (nearest (d.nanos * policy.multiplier.ratio.1) policy.multiplier.ratio.2).value ≤
      policy.max.nanos := value_nearest_le_of_le hd below.le small
  refine ⟨below, ?_, rounded⟩
  rw [next, if_neg free, nanosOf_eq own]
  exact nanos_ofNanos hd (lt_of_le_of_lt rounded (by exact_mod_cast small))

theorem next_bounds : d.nanos ≤ (policy.next d).nanos ∧
    (policy.next d).nanos ≤ policy.max.nanos := by
  by_cases free : policy.isCapped d = true
  · rw [next, if_pos free]
    exact ⟨h, Nat.le_refl _⟩
  obtain ⟨-, same, capped⟩ := nanos_next sound small h free
  rw [same]
  constructor
  · rw [le_floor_iff]
    exact le_value_nearest_of_le policy.multiplier.ratio_pos
      (Nat.mul_le_mul_left d.nanos sound.above.le) (Nat.lt_of_le_of_lt h small)
  · have floor := (le_floor_iff (nearest (d.nanos * policy.multiplier.ratio.1)
      policy.multiplier.ratio.2)).mp (Nat.le_refl _)
    exact_mod_cast floor.trans capped

end

theorem paced_delay (sound : policy.Sound) (small : policy.max.nanos < wholes) :
    policy.Paced fun n => (policy.delay n).nanos :=
  paced_of_step sound rfl fun _ => next_bounds sound small

-- ---------------------------------------------------------------------------
-- Multipliers of few bits
-- ---------------------------------------------------------------------------

/-- The multiplier is a fraction so short that no delay times its numerator leaves the precision. -/
structure Short (policy : BackoffPolicy) (p q : Nat) : Prop where
  positive : 0 < q
  same : policy.multiplier.ratio.1 * q = p * policy.multiplier.ratio.2
  few : policy.max.nanos * p < wholes

theorem Short.lt (short : policy.Short p q) (sound : policy.Sound) : q < p := by
  have numPositive : 0 < policy.multiplier.ratio.1 := Nat.zero_lt_of_lt sound.above
  have pPositive : 0 < p := Nat.pos_of_mul_pos_right
    (short.same ▸ Nat.mul_pos numPositive short.positive)
  refine Nat.lt_of_mul_lt_mul_left (a := policy.multiplier.ratio.1) ?_
  rw [short.same, Nat.mul_comm p]
  exact Nat.mul_lt_mul_of_pos_right sound.above pPositive

theorem Short.small (short : policy.Short p q) (sound : policy.Sound) :
    policy.max.nanos < wholes :=
  Nat.lt_of_le_of_lt (Nat.le_mul_of_pos_right _ (Nat.zero_lt_of_lt (short.lt sound))) short.few

theorem isCapped_iff_exact {d : Duration} (sound : policy.Sound) (short : policy.Short p q)
    (h : d.nanos ≤ policy.max.nanos) : policy.isCapped d = true ↔
      policy.max.nanos * policy.multiplier.ratio.2 ≤ d.nanos * policy.multiplier.ratio.1 := by
  have small := short.small sound
  have hn : 0 < policy.multiplier.ratio.1 := Nat.zero_lt_of_lt sound.above
  rw [isCapped_iff sound small h]
  constructor
  · refine fun rounded => Nat.le_of_not_lt fun free => not_lt.mpr rounded ?_
    -- the bound as a fraction is the greatest delay times `q / p`
    have same : policy.max.nanos * policy.multiplier.ratio.2 * p =
        policy.max.nanos * q * policy.multiplier.ratio.1 := by
      rw [Nat.mul_assoc, Nat.mul_assoc, Nat.mul_comm _ p, ← short.same, Nat.mul_comm q]
    have few : policy.max.nanos * q < wholes :=
      Nat.lt_of_le_of_lt (Nat.mul_le_mul_left _ (short.lt sound).le) short.few
    exact lt_value_nearest_of_lt hn (Nat.zero_lt_of_lt (short.lt sound)) same few free
  · exact fun reached => value_nearest_le_of_le hn reached (Nat.lt_of_le_of_lt h small)

theorem nanos_next_eq {d : Duration} (sound : policy.Sound) (short : policy.Short p q)
    (h : d.nanos ≤ policy.max.nanos) : (policy.next d).nanos = policy.exactNext d.nanos := by
  have small := short.small sound
  simp only [exactNext, ← isCapped_iff_exact sound short h]
  by_cases free : policy.isCapped d = true
  · rw [next, if_pos free, if_pos free]
  · obtain ⟨below, next, -⟩ := nanos_next sound small h free
    have same : d.nanos * policy.multiplier.ratio.1 * q =
        d.nanos * p * policy.multiplier.ratio.2 := by
      rw [Nat.mul_assoc, short.same, Nat.mul_assoc]
    have few : d.nanos * p < wholes := Nat.lt_of_le_of_lt (Nat.mul_le_mul_right p h) short.few
    rw [Nat.mul_comm policy.max.nanos] at below
    rw [if_neg free, next]
    exact floor_nearest policy.multiplier.ratio_pos short.positive same few
      (Nat.lt_trans (Nat.div_lt_of_lt_mul below) small)

theorem nanos_delay (sound : policy.Sound) (short : policy.Short p q) (n : Nat) :
    (policy.delay n).nanos = policy.exactDelay n := by
  induction n with
  | zero => rfl
  | succ n ih =>
    have capped := (paced_exactDelay sound).capped n
    rw [← ih] at capped
    rw [exactDelay, ← ih]
    exact nanos_next_eq sound short capped

-- ---------------------------------------------------------------------------
-- Runs with these delays
-- ---------------------------------------------------------------------------

theorem sleepMillis_pos {d : Duration} (h : 0 < d.nanos) : 0 < d.sleepMillis :=
  Nat.div_pos (by omega) (by decide)

/-- The delays never decrease, exceed the greatest or run out, and a run with them probes and ends as
it should: without rounding, and with the roundings as well where they are exact enough. -/
theorem supervised (sound : policy.Sound) (stop : StopRequest) (probes : Nat → Bool) :
    (policy.Paced policy.exactDelay ∧ Supervision.Runs policy.exactDelay stop probes) ∧
    (∀ n, policy.delays n = (List.range n).map policy.delay) ∧
    (policy.max.nanos < wholes →
      policy.Paced (fun n => (policy.delay n).nanos) ∧
      Supervision.Runs (fun n => (policy.delay n).nanos) stop probes ∧
      Supervision.Runs (fun n => (policy.delay n).sleepMillis) stop probes) ∧
    ∀ p q, policy.Short p q → ∀ n, (policy.delay n).nanos = policy.exactDelay n := by
  have exact := paced_exactDelay sound
  refine ⟨⟨exact, Supervision.runs (exact.positive sound) stop probes⟩, policy.delays_eq,
    fun small => ?_, fun p q => nanos_delay sound⟩
  have rounded := paced_delay sound small
  exact ⟨rounded, Supervision.runs (rounded.positive sound) stop probes,
    Supervision.runs (fun n => sleepMillis_pos (rounded.positive sound n)) stop probes⟩

theorem sound_default : Sound {} where
  positive := by decide
  fits := by decide
  finite := by decide
  unsigned := by decide
  above := by decide

theorem short_default : Short {} 2 1 where
  positive := by decide
  same := by decide
  few := by decide

/-- Stop is requested during the third probe, which succeeds; it is made after 500 ms and 1 s. -/
theorem supervised_default :
    Sound {} ∧ (∀ n, (delay {} n).nanos = exactDelay {} n) ∧
      ∃ n, (Supervision.after (exactDelay {}) (.duringProbe 2) (· == 2) n).finished = some .ready ∧
        (Supervision.after (exactDelay {}) (.duringProbe 2) (· == 2) n).time = 1500000000 := by
  obtain ⟨⟨-, runs⟩, -, -, same⟩ := supervised sound_default (.duringProbe 2) (· == 2)
  refine ⟨sound_default, same 2 1 short_default, (runs.ready _).mpr ⟨2, ⟨?_, rfl⟩, rfl, ?_⟩⟩
  · decide
  · decide

end BackoffPolicy

end Federation
