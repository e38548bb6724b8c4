import Federation.Proofs.Time.Rfc3339
import Mathlib.Data.List.Lex
import Mathlib.Data.Rat.Cast.Order
import Mathlib.Data.String.Basic
import Mathlib.Tactic.FieldSimp
import Mathlib.Tactic.Linarith
import Mathlib.Tactic.Positivity
import Mathlib.Tactic.Ring

/-!
# Times in the order of their texts

In the years 0 to 9999 the texts that are stored come in the order of the points in time. All parts
but the fraction have the same number of digits. A fraction is compared as such: the sign of the
offset, which ends it, comes before the point and before all digits.
-/

namespace Federation.Rfc3339

open Text (digitValue valueOf)

-- ---------------------------------------------------------------------------
-- Digits
-- ---------------------------------------------------------------------------

theorem digit_range {c : Char} (h : c.isDigit = true) : 48 ≤ c.toNat ∧ c.toNat ≤ 57 :=
  Char.isDigit_iff_toNat.mp h

theorem lt_iff_toNat {c d : Char} : c < d ↔ c.toNat < d.toNat := Iff.rfl

theorem digitValue_eq (c : Char) : digitValue c = c.toNat - 48 := rfl

theorem lt_iff_digitValue {c d : Char} (hc : c.isDigit = true) (hd : d.isDigit = true) :
    c < d ↔ digitValue c < digitValue d := by
  have := digit_range hc
  have := digit_range hd
  rw [lt_iff_toNat, digitValue_eq, digitValue_eq]
  omega

theorem eq_iff_digitValue {c d : Char} (hc : c.isDigit = true) (hd : d.isDigit = true) :
    c = d ↔ digitValue c = digitValue d := by
  have := digit_range hc
  have := digit_range hd
  rw [← Char.toNat_inj, digitValue_eq, digitValue_eq]
  omega

-- ---------------------------------------------------------------------------
-- Numbers of the same width
-- ---------------------------------------------------------------------------

theorem append_lt_append {a b x y : List Char} (h : a.length = b.length) :
    a ++ x < b ++ y ↔ a < b ∨ a = b ∧ x < y := by
  induction a generalizing b with
  | nil =>
    obtain rfl := List.eq_nil_of_length_eq_zero h.symm
    simp
  | cons c a ih =>
    obtain ⟨d, b, rfl⟩ := List.exists_cons_of_length_eq_add_one h.symm
    rw [List.cons_append, List.cons_append, List.cons_lt_cons_iff, List.cons_lt_cons_iff,
      ih (by simpa using h), List.cons.injEq]
    tauto

/-- Digits that go on with two numbers order them as the numbers do, or else by themselves. -/
theorem foldl_lt_foldl {a b : List Char} (ha : ∀ c ∈ a, c.isDigit = true)
    (hb : ∀ c ∈ b, c.isDigit = true) (h : a.length = b.length) (n m : Nat) :
    a.foldl (fun n c => 10 * n + digitValue c) n < b.foldl (fun n c => 10 * n + digitValue c) m ↔
      n < m ∨ n = m ∧ a < b := by
  induction a generalizing b n m with
  | nil =>
    obtain rfl := List.eq_nil_of_length_eq_zero h.symm
    simp
  | cons c a ih =>
    obtain ⟨d, b, rfl⟩ := List.exists_cons_of_length_eq_add_one h.symm
    obtain ⟨hc, ha⟩ := List.forall_mem_cons.mp ha
    obtain ⟨hd, hb⟩ := List.forall_mem_cons.mp hb
    have := digit_range hc
    have := digit_range hd
    rw [List.foldl_cons, List.foldl_cons, ih ha hb (by simpa using h), List.cons_lt_cons_iff,
      lt_iff_digitValue hc hd, eq_iff_digitValue hc hd, digitValue_eq, digitValue_eq]
    by_cases later : a < b <;> simp only [later, and_true, and_false, or_false] <;> omega

theorem padded_lt_padded {width n m : Nat} (hn : n < 10 ^ width) (hm : m < 10 ^ width)
    (hw : 0 < width) (x y : List Char) :
    padded width n ++ x < padded width m ++ y ↔ n < m ∨ n = m ∧ x < y := by
  have length : (padded width n).length = (padded width m).length := by
    rw [length_padded hn hw, length_padded hm hw]
  have order := foldl_lt_foldl (isDigit_padded width n) (isDigit_padded width m) length 0 0
  have same : padded width n = padded width m ↔ n = m := by
    refine ⟨fun h => ?_, congrArg _⟩
    rw [← valueOf_padded width n, h, valueOf_padded]
  change valueOf _ < valueOf _ ↔ _ at order
  rw [valueOf_padded, valueOf_padded] at order
  rw [append_lt_append length, same, order]
  simp

-- ---------------------------------------------------------------------------
-- Fractions
-- ---------------------------------------------------------------------------

def fractionOf : List Char → ℚ
  | [] => 0
  | c :: digits => (digitValue c + fractionOf digits) / 10

theorem fractionOf_range {digits : List Char} (hd : ∀ c ∈ digits, c.isDigit = true) :
    0 ≤ fractionOf digits ∧ fractionOf digits < 1 := by
  induction digits with
  | nil => simp [fractionOf]
  | cons c digits ih =>
    obtain ⟨hc, hd⟩ := List.forall_mem_cons.mp hd
    obtain ⟨low, high⟩ := ih hd
    have digit : digitValue c ≤ 9 := by
      have := digit_range hc
      rw [digitValue_eq]
      omega
    have digit : (digitValue c : ℚ) ≤ 9 := by exact_mod_cast digit
    have natural : (0 : ℚ) ≤ digitValue c := Nat.cast_nonneg _
    rw [fractionOf]
    constructor <;> linarith

theorem fractionOf_eq (digits : List Char) :
    fractionOf digits = valueOf digits / 10 ^ digits.length := by
  have general (start : Nat) : ((digits.foldl (fun n c => 10 * n + digitValue c) start : Nat) : ℚ) =
      (start + fractionOf digits) * 10 ^ digits.length := by
    induction digits generalizing start with
    | nil => simp [fractionOf]
    | cons c digits ih =>
      rw [List.foldl_cons, ih, fractionOf, List.length_cons, pow_succ]
      push_cast
      ring
  rw [eq_div_iff (by positivity), valueOf, general 0]
  simp

/-- Digits that stand for less come first, also where they are fewer and a sign ends them. -/
theorem lt_of_fractionOf_lt {a b : List Char} (ha : ∀ c ∈ a, c.isDigit = true)
    (hb : ∀ c ∈ b, c.isDigit = true) (h : fractionOf a < fractionOf b) (x y : List Char) :
    a ++ '+' :: x < b ++ '+' :: y := by
  induction a generalizing b with
  | nil =>
    cases b with
    | nil => exact absurd h (lt_irrefl _)
    | cons d b =>
      have digit := digit_range (List.forall_mem_cons.mp hb).1
      have sign : '+'.toNat = 43 := rfl
      rw [List.nil_append, List.cons_append, List.cons_lt_cons_iff, lt_iff_toNat]
      omega
  | cons c a ih =>
    cases b with
    | nil => exact absurd h (not_lt.mpr (fractionOf_range ha).1)
    | cons d b =>
      obtain ⟨hc, ha⟩ := List.forall_mem_cons.mp ha
      obtain ⟨hd, hb⟩ := List.forall_mem_cons.mp hb
      rw [fractionOf, fractionOf] at h
      rw [List.cons_append, List.cons_append, List.cons_lt_cons_iff, lt_iff_digitValue hc hd,
        eq_iff_digitValue hc hd]
      rcases Nat.lt_trichotomy (digitValue c) (digitValue d) with less | same | more
      · exact .inl less
      · rw [same] at h
        exact .inr ⟨same, ih ha hb (by linarith)⟩
      · have more : (digitValue d + 1 : ℚ) ≤ digitValue c := by exact_mod_cast more
        have := (fractionOf_range ha).1
        have := (fractionOf_range hb).2
        linarith

theorem writeFraction_eq {nanos : Nat} (h : nanos < 1000000000) (some : nanos ≠ 0) :
    ∃ digits, writeFraction nanos = '.' :: digits ∧ (∀ c ∈ digits, c.isDigit = true) ∧
      fractionOf digits = nanos / 1000000000 := by
  have digits {w n : Nat} (hn : n < 10 ^ w) (hw : 0 < w)
      (scaled : (n : ℚ) / 10 ^ w = nanos / 1000000000) :
      ∃ digits, '.' :: padded w n = '.' :: digits ∧ (∀ c ∈ digits, c.isDigit = true) ∧
        fractionOf digits = nanos / 1000000000 := by
    refine ⟨padded w n, rfl, isDigit_padded w n, ?_⟩
    rw [fractionOf_eq, valueOf_padded, length_padded hn hw, scaled]
  unfold writeFraction
  rw [if_neg some]
  split
  case isTrue whole =>
    obtain ⟨k, rfl⟩ := Nat.dvd_of_mod_eq_zero whole
    refine digits (by omega) (by decide) ?_
    rw [Nat.mul_div_cancel_left k (by decide)]
    push_cast
    ring
  case isFalse =>
    split
    case isTrue whole =>
      obtain ⟨k, rfl⟩ := Nat.dvd_of_mod_eq_zero whole
      refine digits (by omega) (by decide) ?_
      rw [Nat.mul_div_cancel_left k (by decide)]
      push_cast
      ring
    case isFalse => exact digits (by omega) (by decide) (by norm_num)

theorem writeFraction_lt {n m : Nat} (h : n < m) (hm : m < 1000000000) (x y : List Char) :
    writeFraction n ++ '+' :: x < writeFraction m ++ '+' :: y := by
  obtain ⟨more, hmore, moreDigits, moreValue⟩ := writeFraction_eq hm (Nat.ne_zero_of_lt h)
  rw [hmore, List.cons_append]
  by_cases none : n = 0
  · rw [none, writeFraction, if_pos rfl, List.nil_append, List.cons_lt_cons_iff]
    exact .inl (by decide)
  · obtain ⟨less, hless, lessDigits, lessValue⟩ := writeFraction_eq (Nat.lt_trans h hm) none
    rw [hless, List.cons_append, List.cons_lt_cons_iff]
    refine .inr ⟨rfl, lt_of_fractionOf_lt lessDigits moreDigits ?_ x y⟩
    rw [lessValue, moreValue]
    have h : (n : ℚ) < m := by exact_mod_cast h
    linarith

theorem writeFraction_lt_iff {n m : Nat} (hn : n < 1000000000) (hm : m < 1000000000)
    (x : List Char) : writeFraction n ++ '+' :: x < writeFraction m ++ '+' :: x ↔ n < m := by
  refine ⟨fun less => ?_, fun h => writeFraction_lt h hm x x⟩
  rcases Nat.lt_trichotomy n m with h | rfl | h
  · exact h
  · exact absurd less (List.lt_irrefl _)
  · exact absurd less (List.lt_asymm (writeFraction_lt h hn x x))

-- ---------------------------------------------------------------------------
-- Points in time
-- ---------------------------------------------------------------------------

/-- The years that are written with four digits and without a sign. -/
def FourDigits (t : Instant) : Prop := 0 ≤ t.date.year ∧ t.date.year ≤ 9999

theorem marked_lt_marked (c : Char) (x y : List Char) : c :: x < c :: y ↔ x < y := by
  rw [List.cons_lt_cons_iff]
  simp

theorem written_lt_written {s t : Instant} (hs : s.Valid) (ht : t.Valid) :
    writtenSecond s < writtenSecond t ∨
        writtenSecond s = writtenSecond t ∧ writtenNanos s < writtenNanos t ↔
      s.second < t.second ∨ s.second = t.second ∧ s.nanos < t.nanos := by
  have := hs.nanos
  have := ht.nanos
  have := hs.second
  have := ht.second
  unfold writtenSecond writtenNanos
  split <;> split <;> omega

/-- All parts between the year and the fraction have two digits. -/
theorem fields_le {t : Instant} (h : t.Valid) : t.date.month ≤ 99 ∧ t.date.day ≤ 99 ∧
    t.hour ≤ 99 ∧ t.minute ≤ 99 ∧ writtenSecond t ≤ 99 := by
  obtain ⟨-, -, -, month, -, day⟩ := h.date
  have day := Nat.le_trans day (daysIn_le ..)
  have hour := h.hour
  have minute := h.minute
  have second := writtenSecond_le h
  omega

theorem writeYear_lt {y z : Int} (hy : 0 ≤ y ∧ y ≤ 9999) (hz : 0 ≤ z ∧ z ≤ 9999)
    (a b : List Char) : writeYear y ++ a < writeYear z ++ b ↔ y < z ∨ y = z ∧ a < b := by
  rw [writeYear, writeYear, if_pos hy, if_pos hz,
    padded_lt_padded (by omega) (by omega) (by decide)]
  have less : y.natAbs < z.natAbs ↔ y < z := by omega
  have same : y.natAbs = z.natAbs ↔ y = z := by omega
  rw [less, same]

/-- The texts in the store are in the order of time. -/
theorem writeStored_lt_iff {s t : Instant} (hs : s.Valid) (ht : t.Valid) (hs4 : FourDigits s)
    (ht4 : FourDigits t) : writeStored s < writeStored t ↔ s.keys < t.keys := by
  obtain ⟨monthS, dayS, hourS, minuteS, secondS⟩ := fields_le hs
  obtain ⟨monthT, dayT, hourT, minuteT, secondT⟩ := fields_le ht
  have two {n m : Nat} (hn : n ≤ 99) (hm : m ≤ 99) (a b : List Char) :
      padded 2 n ++ a < padded 2 m ++ b ↔ n < m ∨ n = m ∧ a < b :=
    padded_lt_padded (by omega) (by omega) (by decide) a b
  rw [String.lt_iff_toList_lt, writeStored, writeStored, String.toList_ofList,
    String.toList_ofList, writeLocal_eq, writeLocal_eq, writeYear_lt hs4 ht4, marked_lt_marked,
    two monthS monthT, marked_lt_marked, two dayS dayT, marked_lt_marked, two hourS hourT,
    marked_lt_marked, two minuteS minuteT, marked_lt_marked, two secondS secondT,
    writeFraction_lt_iff (writtenNanos_lt hs) (writtenNanos_lt ht), written_lt_written hs ht]
  simp [Instant.keys, List.cons_lt_cons_iff]

end Federation.Rfc3339
