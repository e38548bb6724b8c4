import Mathlib.Algebra.Group.Nat.Defs
import Federation.Proofs.Json.RoundTrip
import Federation.Time.Stored

/-!
# Times that are read back

A point in time is read back from both of the texts that are written for it, the one in messages and
the one in the store, whatever its year and also within a leap second.
-/

namespace Federation

structure Instant.Valid (t : Instant) : Prop where
  date : t.date.Valid
  hour : t.hour < 24
  minute : t.minute < 60
  second : t.second < 60
  nanos : t.nanos < 1000000000 ∨ t.second = 59 ∧ t.nanos < 2000000000

namespace Rfc3339

open Text (trimLeft valueOf)

-- ---------------------------------------------------------------------------
-- Digits
-- ---------------------------------------------------------------------------

def Stops (rest : List Char) : Prop := ∀ c ∈ rest.head?, c.isDigit = false

theorem stops_cons {c : Char} (h : c.isDigit = false) (rest : List Char) : Stops (c :: rest) := by
  rintro _ ⟨⟩
  exact h

theorem isDigit_padded (width n : Nat) : ∀ c ∈ padded width n, c.isDigit = true := by
  intro c hc
  rcases List.mem_append.mp hc with hc | hc
  · rw [List.eq_of_mem_replicate hc]
    decide
  · exact Number.isDigit_toDigits n c hc

theorem valueOf_eq (digits : List Char) : valueOf digits = Nat.ofDigitChars 10 digits 0 := rfl

theorem ofDigitChars_zeros (count : Nat) (digits : List Char) :
    Nat.ofDigitChars 10 (List.replicate count '0' ++ digits) 0 = Nat.ofDigitChars 10 digits 0 := by
  induction count with
  | zero => rfl
  | succ count ih =>
    rw [List.replicate_succ, List.cons_append, Nat.ofDigitChars_cons]
    exact ih

theorem valueOf_padded (width n : Nat) : valueOf (padded width n) = n := by
  rw [valueOf_eq, padded, ofDigitChars_zeros]
  exact Nat.ofDigitChars_ten_toDigits

theorem padded_ne_nil (width n : Nat) : padded width n ≠ [] := by
  obtain ⟨c, rest, heq, -⟩ := Number.toDigits_cons n
  simp [padded, heq]

theorem length_padded {width n : Nat} (h : n < 10 ^ width) (hw : 0 < width) :
    (padded width n).length = width := by
  have digits : (Nat.toDigits 10 n).length ≤ width :=
    (Nat.length_toDigits_le_iff (by decide) hw).mpr h
  simp only [padded, List.length_append, List.length_replicate]
  omega

theorem trimLeft_of_not_blank {c : Char} (h : Text.isBlank c = false) (rest : List Char) :
    trimLeft (c :: rest) = c :: rest := by
  rw [trimLeft, List.dropWhile_cons, if_neg (by simp [h])]

theorem trimLeft_padded (width n : Nat) (rest : List Char) :
    trimLeft (padded width n ++ rest) = padded width n ++ rest := by
  obtain ⟨c, more, heq⟩ := List.exists_cons_of_ne_nil (padded_ne_nil width n)
  have digit := isDigit_padded width n c (heq ▸ List.mem_cons_self)
  rw [heq, List.cons_append, trimLeft_of_not_blank (Document.begins_of_numeral (.inr digit)).1]

-- ---------------------------------------------------------------------------
-- Numbers
-- ---------------------------------------------------------------------------

theorem number_digits {digits : List Char} (hd : ∀ c ∈ digits, c.isDigit = true)
    (present : digits ≠ []) (width : Option Nat) (fits : ∀ w ∈ width, digits.length ≤ w)
    (hr : Stops rest) : number width (digits ++ rest) = .ok (valueOf digits, rest) := by
  have front (text : List Char) (h : Stops text) :
      (digits ++ text).takeWhile Char.isDigit = digits := by
    rw [List.takeWhile_append_of_pos hd]
    cases text with
    | nil => simp
    | cons c text => simp [h c rfl]
  have cut (count : Nat) : Stops (rest.take count) := by
    cases count with
    | zero => simp [Stops]
    | succ count =>
      cases rest with
      | nil => exact hr
      | cons c rest => exact stops_cons (hr c rfl) _
  obtain ⟨c, more, rfl⟩ := List.exists_cons_of_ne_nil present
  cases width with
  | none =>
    have found := front rest hr
    simp only [number, found, List.drop_left]
    rfl
  | some w =>
    have found : ((c :: more ++ rest).take w).takeWhile Char.isDigit = c :: more := by
      rw [List.take_append, List.take_of_length_le (fits w rfl)]
      exact front _ (cut _)
    simp only [number, found, List.drop_left]
    rfl

theorem number_padded {w n : Nat} (h : n < 10 ^ w) (hw : 0 < w) (hr : Stops rest) :
    number (some w) (padded w n ++ rest) = .ok (n, rest) := by
  have fits : ∀ v ∈ some w, (padded w n).length ≤ v := by
    simp [length_padded h hw]
  rw [number_digits (isDigit_padded _ _) (padded_ne_nil _ _) _ fits hr, valueOf_padded]

theorem field_padded {width low high n : Nat} (h : n < 10 ^ width) (hw : 0 < width)
    (range : low ≤ n ∧ n ≤ high) (hr : Stops rest) :
    field width low high (padded width n ++ rest) = .ok (n, rest) := by
  simp [field, trimLeft_padded, number_padded h hw hr, range, bind, Except.bind]

theorem year_writeYear {y : Int} (fits : fitsYear y = true) (hr : Stops rest) :
    year (writeYear y ++ rest) = .ok (y, rest) := by
  have free :=
    number_digits (isDigit_padded 4 y.natAbs) (padded_ne_nil 4 y.natAbs) none (by simp) hr
  rw [valueOf_padded] at free
  unfold writeYear
  split
  case isTrue plain =>
    have four := number_padded (w := 4) (n := y.natAbs) (by omega) (by decide) hr
    have trimmed := trimLeft_padded 4 y.natAbs rest
    obtain ⟨c, more, heq⟩ := List.exists_cons_of_ne_nil (padded_ne_nil 4 y.natAbs)
    have digit := isDigit_padded 4 y.natAbs c (heq ▸ List.mem_cons_self)
    have unsigned : c ≠ '-' ∧ c ≠ '+' := by
      constructor <;> rintro rfl <;> revert digit <;> decide
    have same : (y.natAbs : Int) = y := by omega
    rw [heq, List.cons_append] at four trimmed ⊢
    simp [year, trimmed, unsigned, four, same, fits, bind, Except.bind, pure, Except.pure]
  case isFalse signed =>
    by_cases negative : y < 0
    · have same : -(y.natAbs : Int) = y := by omega
      have trimmed := trimLeft_of_not_blank (c := '-') (by decide) (padded 4 y.natAbs ++ rest)
      rw [if_pos negative, List.cons_append]
      simp only [year, trimmed, free, bind, Except.bind, pure, Except.pure, same, fits, if_true]
    · have same : (y.natAbs : Int) = y := by omega
      have trimmed := trimLeft_of_not_blank (c := '+') (by decide) (padded 4 y.natAbs ++ rest)
      rw [if_neg negative, List.cons_append]
      simp only [year, trimmed, free, bind, Except.bind, pure, Except.pure, same, fits, if_true]

theorem fraction_writeFraction {nanos : Nat} (h : nanos < 1000000000) (hr : Stops rest)
    (point : rest.head? ≠ some '.') :
    fraction (writeFraction nanos ++ rest) = .ok (nanos, rest) := by
  have digits {w n : Nat} (hn : n < 10 ^ w) (hw : 0 < w) (nine : w ≤ 9)
      (scaled : n * 10 ^ (9 - w) = nanos) :
      fraction ('.' :: (padded w n ++ rest)) = .ok (nanos, rest) := by
    have length := length_padded hn hw
    have read := number_digits (isDigit_padded w n) (padded_ne_nil w n) (some 9)
      (by simp [length, nine]) hr
    have rest_eq : rest.dropWhile Char.isDigit = rest := by
      cases rest with
      | nil => rfl
      | cons c rest => simp [hr c rfl]
    rw [valueOf_padded] at read
    simp [fraction, read, rest_eq, length, scaled, bind, Except.bind]
  unfold writeFraction
  split
  case isTrue zero =>
    rw [List.nil_append, zero]
    unfold fraction
    split
    · exact absurd rfl point
    · rfl
  case isFalse some =>
    split
    · exact digits (w := 3) (by omega) (by decide) (by decide) (by simp; omega)
    · split
      · exact digits (w := 6) (by omega) (by decide) (by decide) (by simp; omega)
      · exact digits (w := 9) (by omega) (by decide) (by decide) (by simp)

theorem stops_writeFraction (nanos : Nat) (hr : Stops rest) :
    Stops (writeFraction nanos ++ rest) := by
  unfold writeFraction
  split
  · exact hr
  · split
    · exact stops_cons (by decide) _
    · split <;> exact stops_cons (by decide) _

theorem mark_cons {c : Char} (h : Text.isBlank c = false) (rest : List Char) :
    mark c (c :: rest) = .ok ((), rest) := by
  simp [mark, trimLeft_of_not_blank h]

theorem exactly_cons (c : Char) (rest : List Char) : exactly c (c :: rest) = .ok ((), rest) := by
  simp [exactly]

-- ---------------------------------------------------------------------------
-- Assembling
-- ---------------------------------------------------------------------------

variable {t : Instant}

/-- The second as it is written, where a leap second is the sixtieth. -/
def writtenSecond (t : Instant) : Nat := if 1000000000 ≤ t.nanos then t.second + 1 else t.second

def writtenNanos (t : Instant) : Nat :=
  if 1000000000 ≤ t.nanos then t.nanos - 1000000000 else t.nanos

theorem ofLocal_zero (h : t.Valid) : t.ofLocal 0 = t := by
  obtain ⟨date, hour, minute, second, nanos⟩ := t
  have hour := h.hour
  have minute := h.minute
  have second := h.second
  dsimp only at hour minute second
  unfold Instant.ofLocal Instant.secondOfDay
  dsimp only
  rw [if_neg (by omega), if_pos (by unfold Instant.secondsPerDay; omega)]
  unfold Instant.ofSecondOfDay
  simp only [Int.sub_zero, Int.toNat_natCast, Instant.mk.injEq, true_and, and_true]
  omega

theorem assemble_written (h : t.Valid) :
    assemble t.date t.hour t.minute (writtenSecond t) (writtenNanos t) 0 = .ok t := by
  have local_eq : (⟨t.date, t.hour, t.minute, min (writtenSecond t) 59,
      writtenNanos t + if writtenSecond t = 60 then 1000000000 else 0⟩ : Instant) = t := by
    obtain ⟨date, hour, minute, second, nanos⟩ := t
    have second := h.second
    have nanos := h.nanos
    dsimp only at second nanos
    unfold writtenSecond writtenNanos
    simp only [Instant.mk.injEq, true_and]
    split <;> constructor <;> (try split) <;> omega
  obtain ⟨years, years', -⟩ := h.date
  unfold assemble
  rw [if_neg (fun invalid => invalid h.date), if_neg (by decide)]
  dsimp only
  rw [local_eq, ofLocal_zero h, if_pos ⟨years, years'⟩]

theorem writeLocal_eq (t : Instant) (rest : List Char) :
    writeLocal t ++ rest = writeYear t.date.year ++ ('-' :: (padded 2 t.date.month ++
      ('-' :: (padded 2 t.date.day ++ ('T' :: (padded 2 t.hour ++ (':' :: (padded 2 t.minute ++
        (':' :: (padded 2 (writtenSecond t) ++ (writeFraction (writtenNanos t) ++ rest))))))))))) := by
  simp [writeLocal, writtenSecond, writtenNanos]

theorem daysIn_le (year : Int) (month : Nat) : CivilDate.daysIn year month ≤ 31 := by
  unfold CivilDate.daysIn
  split
  · split <;> decide
  all_goals decide

theorem fitsYear_of_valid {d : CivilDate} (h : d.Valid) : fitsYear d.year = true := by
  have low := h.1
  have high := h.2.1
  unfold CivilDate.firstYear at low
  unfold CivilDate.lastYear at high
  simp only [fitsYear, Bool.and_eq_true, decide_eq_true_eq]
  omega

section

variable (h : t.Valid)

include h

theorem writtenSecond_le : writtenSecond t ≤ 60 := by
  have second := h.second
  unfold writtenSecond
  split <;> omega

theorem writtenNanos_lt : writtenNanos t < 1000000000 := by
  have nanos := h.nanos
  unfold writtenNanos
  split <;> omega

structure Parts (t : Instant) : Prop where
  year (rest : List Char) :
    year (writeYear t.date.year ++ '-' :: rest) = .ok (t.date.year, '-' :: rest)
  month (rest : List Char) :
    field 2 1 12 (padded 2 t.date.month ++ '-' :: rest) = .ok (t.date.month, '-' :: rest)
  day (rest : List Char) :
    field 2 1 31 (padded 2 t.date.day ++ 'T' :: rest) = .ok (t.date.day, 'T' :: rest)
  hour (rest : List Char) : field 2 0 23 (padded 2 t.hour ++ ':' :: rest) = .ok (t.hour, ':' :: rest)
  minute (rest : List Char) :
    field 2 0 59 (padded 2 t.minute ++ ':' :: rest) = .ok (t.minute, ':' :: rest)
  second (rest : List Char) : Stops rest →
    field 2 0 60 (padded 2 (writtenSecond t) ++ (writeFraction (writtenNanos t) ++ rest)) =
      .ok (writtenSecond t, writeFraction (writtenNanos t) ++ rest)
  nanos (rest : List Char) : Stops rest → rest.head? ≠ some '.' →
    fraction (writeFraction (writtenNanos t) ++ rest) = .ok (writtenNanos t, rest)

theorem parts_of_valid : Parts t := by
  obtain ⟨-, -, month, month', day, day'⟩ := h.date
  have days := Nat.le_trans day' (daysIn_le ..)
  have hour := h.hour
  have minute := h.minute
  have second := writtenSecond_le h
  exact {
    year := fun _ => year_writeYear (fitsYear_of_valid h.date) (stops_cons (by decide) _)
    month := fun _ => field_padded (by omega) (by decide) ⟨month, month'⟩ (stops_cons (by decide) _)
    day := fun _ => field_padded (by omega) (by decide) ⟨day, days⟩ (stops_cons (by decide) _)
    hour := fun _ => field_padded (by omega) (by decide) ⟨by omega, by omega⟩
      (stops_cons (by decide) _)
    minute := fun _ => field_padded (by omega) (by decide) ⟨by omega, by omega⟩
      (stops_cons (by decide) _)
    second := fun _ hr => field_padded (by omega) (by decide) ⟨by omega, second⟩
      (stops_writeFraction _ hr)
    nanos := fun _ hr point => fraction_writeFraction (writtenNanos_lt h) hr point }

/-- A text is read as the point in time that it was written for, when what follows is no offset. -/
theorem readChars_writeLocal (hr : Stops rest) (point : rest.head? ≠ some '.')
    (hoffset : offset (trimLeft rest) = .ok (0, [])) :
    readChars (writeLocal t ++ rest) = .ok t := by
  have parts := parts_of_valid h
  rw [writeLocal_eq]
  simp only [readChars, date, parts.year, mark_cons (show Text.isBlank '-' = false by decide),
    mark_cons (show Text.isBlank ':' = false by decide), parts.month, parts.day, parts.hour,
    parts.minute, parts.second _ hr, parts.nanos _ hr point, hoffset,
    show trimLeft [] = [] from rfl, List.isEmpty_nil, Bool.not_true, Bool.false_eq_true, if_false,
    true_or, if_true, bind, Except.bind]
  exact assemble_written h

theorem readPlain_writeLocal :
    readPlain (writeLocal t ++ ['+', '0', '0', ':', '0', '0']) = .ok t := by
  have parts := parts_of_valid h
  have stops : Stops ['+', '0', '0', ':', '0', '0'] := stops_cons (by decide) _
  rw [writeLocal_eq]
  simp only [readPlain, plainDate, plainSeconds, exactly_cons, parts.year, parts.month, parts.day,
    parts.hour, parts.minute, parts.second _ stops, parts.nanos _ stops (by decide),
    show plainOffset ['+', '0', '0', ':', '0', '0'] = .ok (0, []) from rfl, List.isEmpty_nil,
    Bool.not_true, Bool.false_eq_true, if_false, bind, Except.bind]
  exact assemble_written h

theorem read_write : read (write t) = .ok t := by
  rw [read, write, String.toList_ofList]
  exact readChars_writeLocal h (stops_cons (by decide) _) (by decide) rfl

theorem readStored?_writeStored : readStored? (writeStored t) = some t := by
  have strict : read (writeStored t) = .ok t := by
    rw [read, writeStored, String.toList_ofList]
    exact readChars_writeLocal h (stops_cons (by decide) _) (by decide) rfl
  have plain : readPlain (writeStored t).toList = .ok t := by
    rw [writeStored, String.toList_ofList]
    exact readPlain_writeLocal h
  unfold readStored?
  dsimp only
  rw [strict, plain]
  split <;> rfl

end

end Rfc3339

end Federation
