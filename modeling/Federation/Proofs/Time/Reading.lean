import Federation.Proofs.Json.Reals
import Federation.Proofs.Json.Records
import Federation.Proofs.Time.Rfc3339

/-!
# What is read is a time

Whatever text is read as a point in time, with any offset, any number of digits and also within a
leap second, the result is one that a clock can tell. So it is read back from what is written for
it.
-/

namespace Federation

-- ---------------------------------------------------------------------------
-- Dates
-- ---------------------------------------------------------------------------

namespace CivilDate

structure InYear (d : CivilDate) : Prop where
  month : 1 ≤ d.month ∧ d.month ≤ 12
  day : 1 ≤ d.day ∧ d.day ≤ daysIn d.year d.month

theorem Valid.inYear {d : CivilDate} (h : d.Valid) : d.InYear :=
  ⟨⟨h.2.2.1, h.2.2.2.1⟩, h.2.2.2.2⟩

theorem InYear.valid {d : CivilDate} (h : d.InYear)
    (years : firstYear ≤ d.year ∧ d.year ≤ lastYear) : d.Valid :=
  ⟨years.1, years.2, h.month.1, h.month.2, h.day.1, h.day.2⟩

theorem one_le_daysIn (year : Int) (month : Nat) : 1 ≤ daysIn year month := by
  unfold daysIn
  split
  · split <;> decide
  all_goals decide

theorem InYear.next {d : CivilDate} (h : d.InYear) : d.next.InYear := by
  obtain ⟨⟨month, month'⟩, day, day'⟩ := h
  unfold CivilDate.next
  split
  case isTrue within => exact ⟨⟨month, month'⟩, by simp, within⟩
  case isFalse =>
    split
    case isTrue inside => exact ⟨⟨by simp, inside⟩, Nat.le_refl 1, one_le_daysIn _ _⟩
    case isFalse => exact ⟨by simp, Nat.le_refl 1, one_le_daysIn _ _⟩

theorem InYear.previous {d : CivilDate} (h : d.InYear) : d.previous.InYear := by
  obtain ⟨⟨month, month'⟩, day, day'⟩ := h
  unfold CivilDate.previous
  split
  case isTrue later => exact ⟨⟨month, month'⟩, by dsimp only; omega, by dsimp only; omega⟩
  case isFalse =>
    split
    case isTrue inside =>
      exact ⟨⟨by dsimp only; omega, by dsimp only; omega⟩, one_le_daysIn _ _, Nat.le_refl _⟩
    case isFalse => exact ⟨by simp, by simp, by simp [daysIn]⟩

end CivilDate

-- ---------------------------------------------------------------------------
-- Other times of the day
-- ---------------------------------------------------------------------------

namespace Instant

structure InDay (t : Instant) : Prop where
  date : t.date.InYear
  hour : t.hour < 24
  minute : t.minute < 60
  second : t.second < 60
  nanos : t.nanos < 1000000000 ∨ t.second = 59 ∧ t.nanos < 2000000000

theorem inDay_ofSecondOfDay {date : CivilDate} {second nanos : Nat} (h : date.InYear)
    (day : second < secondsPerDay)
    (leap : nanos < 1000000000 ∨ second % 60 = 59 ∧ nanos < 2000000000) :
    (ofSecondOfDay date second nanos).InDay := by
  unfold secondsPerDay at day
  exact ⟨h, by dsimp only [ofSecondOfDay]; omega, by dsimp only [ofSecondOfDay]; omega,
    by dsimp only [ofSecondOfDay]; omega, leap⟩

/-- An offset of whole minutes keeps the second, so that a leap second stays one. -/
theorem InDay.ofLocal {t : Instant} (h : t.InDay) {offset : Int} (whole : offset % 60 = 0)
    (less : offset.natAbs < secondsPerDay) : (t.ofLocal offset).InDay := by
  obtain ⟨date, hour, minute, second, nanos⟩ := h
  unfold secondsPerDay at less
  unfold Instant.ofLocal
  have kept (n : Nat) (h : n % 60 = t.second) :
      t.nanos < 1000000000 ∨ n % 60 = 59 ∧ t.nanos < 2000000000 := h ▸ nanos
  dsimp only
  split
  case isTrue before =>
    unfold secondOfDay secondsPerDay at *
    exact inDay_ofSecondOfDay date.previous (by unfold secondsPerDay; omega) (kept _ (by omega))
  case isFalse =>
    split
    case isTrue within =>
      unfold secondOfDay secondsPerDay at *
      exact inDay_ofSecondOfDay date (by unfold secondsPerDay; omega) (kept _ (by omega))
    case isFalse after =>
      unfold secondOfDay secondsPerDay at *
      exact inDay_ofSecondOfDay date.next (by unfold secondsPerDay; omega) (kept _ (by omega))

theorem InDay.valid {t : Instant} (h : t.InDay)
    (years : CivilDate.firstYear ≤ t.date.year ∧ t.date.year ≤ CivilDate.lastYear) : t.Valid :=
  ⟨h.date.valid years, h.hour, h.minute, h.second, h.nanos⟩

end Instant

theorem ite_ok {c : Prop} [Decidable c] {x y : α} {e : ε}
    (h : (if c then Except.ok x else .error e) = .ok y) : c ∧ x = y := by
  split at h
  case isTrue holds => exact ⟨holds, Except.ok.inj h⟩
  case isFalse => cases h

-- ---------------------------------------------------------------------------
-- The parts of a text
-- ---------------------------------------------------------------------------

namespace Rfc3339

open Text (trimLeft valueOf)

theorem number_ok {w n : Nat} {text rest : List Char} (h : number (some w) text = .ok (n, rest)) :
    ∃ digits, text = digits ++ rest ∧ digits.length ≤ w ∧ n < 10 ^ digits.length := by
  have all : ∀ c ∈ (text.take w).takeWhile Char.isDigit, c.isDigit = true :=
    List.all_eq_true.mp List.all_takeWhile
  have front : (text.take w).takeWhile Char.isDigit <+: text :=
    (List.takeWhile_prefix _).trans (List.take_prefix _ _)
  have short : ((text.take w).takeWhile Char.isDigit).length ≤ w :=
    Nat.le_trans (List.takeWhile_prefix _).length_le (List.length_take_le _ _)
  unfold number at h
  dsimp only at h
  split at h
  · cases h
  · cases h
  · cases h
    have below := Number.ofDigitChars_lt all 0
    rw [Nat.zero_add, Nat.one_mul] at below
    exact ⟨_, (List.prefix_iff_eq_append.mp front).symm, short, below⟩

theorem field_ok {width low high n : Nat} {text rest : List Char}
    (h : field width low high text = .ok (n, rest)) : low ≤ n ∧ n ≤ high := by
  obtain ⟨⟨m, _⟩, -, h⟩ := bind_ok h
  dsimp only at h
  split at h
  case isTrue range =>
    cases h
    simpa using range
  case isFalse => cases h

theorem fraction_ok {nanos : Nat} {text rest : List Char} (h : fraction text = .ok (nanos, rest)) :
    nanos < 1000000000 := by
  unfold fraction at h
  split at h
  · obtain ⟨⟨n, after⟩, read, h⟩ := bind_ok h
    obtain ⟨digits, rfl, short, below⟩ := number_ok read
    cases h
    have used : (digits ++ after).length - after.length = digits.length := by simp
    rw [used]
    calc n * 10 ^ (9 - digits.length)
        < 10 ^ digits.length * 10 ^ (9 - digits.length) :=
          Nat.mul_lt_mul_of_pos_right below (Nat.pow_pos (by decide))
      _ = 10 ^ 9 := by rw [← Nat.pow_add, Nat.add_sub_cancel' short]
  · cases h
    decide

theorem offset_ok {seconds : Int} {text rest : List Char} (h : offset text = .ok (seconds, rest)) :
    seconds % 60 = 0 := by
  unfold offset at h
  split at h
  · cases h; rfl
  · cases h; rfl
  · cases h
  · split at h
    · cases h; rfl
    · split at h
      · cases h
      · obtain ⟨⟨hours, _⟩, -, h⟩ := bind_ok h
        obtain ⟨⟨minutes, _⟩, -, h⟩ := bind_ok h
        dsimp only at h
        split at h
        · cases h
        · cases h
          split <;> omega

theorem assemble_valid {date : CivilDate} {hour minute second nanos : Nat} {offset : Int}
    {t : Instant} (hhour : hour ≤ 23) (hminute : minute ≤ 59) (hsecond : second ≤ 60)
    (hnanos : nanos < 1000000000) (whole : offset % 60 = 0)
    (h : assemble date hour minute second nanos offset = .ok t) : t.Valid := by
  unfold assemble at h
  split at h
  case isTrue => cases h
  case isFalse valid =>
    split at h
    case isTrue => cases h
    case isFalse less =>
      obtain ⟨years, rfl⟩ := ite_ok h
      have date := (not_not.mp valid).inYear
      refine Instant.InDay.valid (Instant.InDay.ofLocal ⟨date, ?_, ?_, ?_, ?_⟩ whole ?_) years
      · exact Nat.lt_succ_of_le hhour
      · exact Nat.lt_succ_of_le hminute
      · dsimp only; omega
      · dsimp only
        split <;> omega
      · exact Nat.lt_of_not_le less

/-- Whatever is read is a point in time that a clock can tell, or within a leap second. -/
theorem valid_of_read {text : String} {t : Instant} (h : read text = .ok t) : t.Valid := by
  unfold read readChars at h
  obtain ⟨⟨date, rest⟩, -, h⟩ := bind_ok h
  cases rest with
  | nil => cases h
  | cons mark rest =>
    dsimp only at h
    split at h
    case isFalse => cases h
    case isTrue =>
      obtain ⟨rest, -, h⟩ := bind_ok h
      obtain ⟨⟨hour, rest⟩, hour_ok, h⟩ := bind_ok h
      obtain ⟨⟨_, rest⟩, -, h⟩ := bind_ok h
      obtain ⟨⟨minute, rest⟩, minute_ok, h⟩ := bind_ok h
      obtain ⟨⟨_, rest⟩, -, h⟩ := bind_ok h
      obtain ⟨⟨second, rest⟩, second_ok, h⟩ := bind_ok h
      obtain ⟨⟨nanos, rest⟩, nanos_ok, h⟩ := bind_ok h
      obtain ⟨⟨seconds, rest⟩, whole, h⟩ := bind_ok h
      dsimp only at h
      split at h
      · cases h
      · exact assemble_valid (field_ok hour_ok).2 (field_ok minute_ok).2 (field_ok second_ok).2
          (fraction_ok nanos_ok) (offset_ok whole) h

end Rfc3339

end Federation
