import Federation.Json.Printer
import Federation.Json.Reader

/-!
# Numbers that are read back

A numeral is read part by part, whatever follows it, as long as that does not go
on with the numeral. An integer of 64 bits is written in decimal digits and read
back as itself.
-/

namespace Federation.Number

-- ---------------------------------------------------------------------------
-- Decimal digits
-- ---------------------------------------------------------------------------

theorem isDigit_toDigits (n : Nat) : ∀ c ∈ Nat.toDigits 10 n, c.isDigit = true :=
  fun _ hc => Nat.isDigit_of_mem_toDigits (by decide) (by decide) hc

theorem toDigits_cons (n : Nat) :
    ∃ c rest, Nat.toDigits 10 n = c :: rest ∧ (c = '0' → rest = [] ∧ n = 0) := by
  induction n using Nat.base_induction 10 (by decide) with
  | single m hm =>
    refine ⟨Nat.digitChar m, [], Nat.toDigits_of_lt_base hm, fun h => ⟨rfl, ?_⟩⟩
    revert h
    revert m
    decide
  | digit m k hk hm ih =>
    obtain ⟨c, rest, heq, hc⟩ := ih
    refine ⟨c, rest ++ Nat.toDigits 10 k, ?_, fun h => ?_⟩
    · rw [← Nat.toDigits_append_toDigits (by decide) hm hk, heq, List.cons_append]
    · exact absurd (hc h).2 (by omega)

theorem le_ofDigitChars (digits : List Char) (start : Nat) :
    start ≤ Nat.ofDigitChars 10 digits start := by
  induction digits generalizing start with
  | nil => simp
  | cons c digits ih =>
    rw [Nat.ofDigitChars_cons]
    exact Nat.le_trans (by omega) (ih _)

/-- As long as the value fits in 64 bits, no digit is left out. -/
theorem accumulate_eq (digits : List Char) (start : Nat)
    (h : Nat.ofDigitChars 10 digits start < UInt64.size) :
    accumulate start digits = (Nat.ofDigitChars 10 digits start, digits.length) := by
  induction digits generalizing start with
  | nil => simp [accumulate]
  | cons c digits ih =>
    rw [Nat.ofDigitChars_cons, Nat.mul_comm] at h ⊢
    have fits := Nat.lt_of_le_of_lt (le_ofDigitChars digits _) h
    simp only [accumulate, if_pos fits, ih _ h, List.length_cons]

-- ---------------------------------------------------------------------------
-- Where a numeral ends
-- ---------------------------------------------------------------------------

def Ends (rest : List Char) : Prop :=
  ∀ c ∈ rest.head?, c.isDigit = false ∧ c ≠ '.' ∧ c ≠ 'e' ∧ c ≠ 'E'

theorem ends_nil : Ends [] := by simp [Ends]

theorem ends_cons {c : Char} {rest : List Char}
    (h : c.isDigit = false ∧ c ≠ '.' ∧ c ≠ 'e' ∧ c ≠ 'E') : Ends (c :: rest) := by
  simpa [Ends] using h

theorem digits_append {ds rest : List Char} (hd : ∀ c ∈ ds, c.isDigit = true)
    (hr : ∀ c ∈ rest.head?, c.isDigit = false) : digits (ds ++ rest) = (ds, rest) := by
  rw [digits, List.takeWhile_append_of_pos hd, List.dropWhile_append_of_pos hd]
  cases rest with
  | nil => simp
  | cons c rest => simp [hr c rfl]

theorem readDigits_append {ds rest : List Char} (hd : ∀ c ∈ ds, c.isDigit = true)
    (present : ds ≠ []) (hr : ∀ c ∈ rest.head?, c.isDigit = false) :
    readDigits (ds ++ rest) = .ok (ds, rest) := by
  obtain ⟨c, tail, rfl⟩ := List.exists_cons_of_ne_nil present
  rw [readDigits, digits_append hd hr]

theorem readWhole_append {ds rest : List Char} (hd : ∀ c ∈ ds, c.isDigit = true)
    (present : ds ≠ []) (leading : ds.head? = some '0' → ds = ['0'])
    (hr : ∀ c ∈ rest.head?, c.isDigit = false) : readWhole (ds ++ rest) = .ok (ds, rest) := by
  rw [readWhole, readDigits_append hd present hr]
  simp only [bind, Except.bind]
  split
  · rename_i c tail other same
    cases same
    exact absurd (leading rfl) (by simp)
  · rfl

theorem readExponent_ends (hr : Ends rest) : readExponent rest = .ok (none, rest) := by
  cases rest with
  | nil => rfl
  | cons c rest =>
    obtain ⟨-, -, he, hE⟩ := hr c rfl
    simp [readExponent, he, hE]

-- ---------------------------------------------------------------------------
-- Numerals part by part
-- ---------------------------------------------------------------------------

namespace Numeral

def signText (n : Numeral) : List Char := if n.negative then ['-'] else []

def fractionText (n : Numeral) : List Char := if n.fraction = [] then [] else '.' :: n.fraction

def exponentText (n : Numeral) : List Char :=
  match n.exponent with
  | none => []
  | some (isNegative, digits) => 'e' :: (if isNegative then '-' else '+') :: digits

def text (n : Numeral) : List Char := n.signText ++ n.whole ++ n.fractionText ++ n.exponentText

/-- There are digits where there have to be, and the first is a zero only if it stands alone. -/
structure Proper (n : Numeral) : Prop where
  whole : ∀ c ∈ n.whole, c.isDigit = true
  present : n.whole ≠ []
  leading : n.whole.head? = some '0' → n.whole = ['0']
  fraction : ∀ c ∈ n.fraction, c.isDigit = true
  exponent : ∀ isNegative digits, n.exponent = some (isNegative, digits) →
    digits ≠ [] ∧ ∀ c ∈ digits, c.isDigit = true

end Numeral

theorem readNumeral_text {n : Numeral} (h : n.Proper) (hr : Ends rest) :
    readNumeral (n.text ++ rest) = .ok (n, rest) := by
  obtain ⟨negative, whole, fraction, exponent⟩ := n
  obtain ⟨hwhole, hpresent, hleading, hfraction, hexponent⟩ := h
  dsimp only at hwhole hpresent hleading hfraction hexponent
  -- what comes after the digits of a part does not go on with digits
  have mark : ∀ c ∈ (Numeral.exponentText ⟨negative, whole, fraction, exponent⟩ ++ rest).head?,
      c.isDigit = false ∧ c ≠ '.' := by
    rcases exponent with _ | ⟨sign, digits⟩
    · exact fun c hc => ⟨(hr c hc).1, (hr c hc).2.1⟩
    · rintro c ⟨⟩
      decide
  have point : ∀ c ∈ (Numeral.fractionText ⟨negative, whole, fraction, exponent⟩ ++
      (Numeral.exponentText ⟨negative, whole, fraction, exponent⟩ ++ rest)).head?,
      c.isDigit = false := by
    unfold Numeral.fractionText
    split
    · exact fun c hc => (mark c hc).1
    · rintro c ⟨⟩
      decide
  have first := readWhole_append hwhole hpresent hleading point
  have second : readFraction (Numeral.fractionText ⟨negative, whole, fraction, exponent⟩ ++
      (Numeral.exponentText ⟨negative, whole, fraction, exponent⟩ ++ rest)) =
      .ok (fraction, Numeral.exponentText ⟨negative, whole, fraction, exponent⟩ ++ rest) := by
    by_cases none : fraction = []
    · rw [Numeral.fractionText, if_pos none, List.nil_append]
      generalize Numeral.exponentText _ ++ rest = text at *
      cases text with
      | nil => rw [none]; rfl
      | cons c text =>
        have other := (mark c rfl).2
        simp [readFraction, other, none]
    · rw [Numeral.fractionText, if_neg none]
      exact readDigits_append hfraction none fun c hc => (mark c hc).1
  have third : readExponent (Numeral.exponentText ⟨negative, whole, fraction, exponent⟩ ++ rest) =
      .ok (exponent, rest) := by
    rcases exponent with _ | ⟨sign, digits⟩
    · exact readExponent_ends hr
    · obtain ⟨present, all⟩ := hexponent sign digits rfl
      have read := readDigits_append all present fun c hc => (hr c hc).1
      cases sign <;> simp [Numeral.exponentText, readExponent, read, bind, Except.bind]
  have unsigned : ∀ c ∈ (whole ++ (Numeral.fractionText ⟨negative, whole, fraction, exponent⟩ ++
      (Numeral.exponentText ⟨negative, whole, fraction, exponent⟩ ++ rest))).head?, c ≠ '-' := by
    obtain ⟨c, tail, rfl⟩ := List.exists_cons_of_ne_nil hpresent
    rintro c' ⟨⟩ rfl
    exact absurd (hwhole '-' List.mem_cons_self) (by decide)
  rw [Numeral.text, List.append_assoc, List.append_assoc, List.append_assoc]
  dsimp only
  generalize Numeral.exponentText _ ++ rest = last at *
  generalize Numeral.fractionText _ ++ last = middle at *
  generalize whole ++ middle = begin at *
  cases negative with
  | true => simp [Numeral.signText, readNumeral, first, second, third, bind, Except.bind]
  | false =>
    cases begin with
    | nil => simp [Numeral.signText, readNumeral, first, second, third, bind, Except.bind]
    | cons c begin =>
      have other := unsigned c rfl
      simp [Numeral.signText, readNumeral, other, first, second, third, bind, Except.bind]

-- ---------------------------------------------------------------------------
-- Integers
-- ---------------------------------------------------------------------------

/-- The integers that are kept as they are: those of 64 bits, with a sign or without. -/
def IsInteger (n : Number) : Prop :=
  ∃ value, n = .int value ∧ -9223372036854775808 ≤ value ∧ value < 18446744073709551616

def IsFinite : Number → Prop
  | .int value => -9223372036854775808 ≤ value ∧ value < 18446744073709551616
  | .real d => d.isFinite = true

theorem IsInteger.isFinite (h : IsInteger n) : n.IsFinite := by
  obtain ⟨value, rfl, range⟩ := h
  exact range

def ReadsBack (n : Number) : Prop :=
  ∀ rest, Ends rest → ∃ numeral,
    readNumeral (n.render ++ rest) = .ok (numeral, rest) ∧ numeral.value? = some n

def reread (n : Number) : Number :=
  match readNumeral n.render with
  | .ok (numeral, _) => numeral.value?.getD n
  | .error _ => n

/-- What is written for the number is a numeral that has a value. -/
def Legible (n : Number) : Prop :=
  ∀ rest, Ends rest → ∃ numeral,
    readNumeral (n.render ++ rest) = .ok (numeral, rest) ∧ numeral.value? = some n.reread

theorem legible_of_numeral {n : Number} {numeral : Numeral} (proper : numeral.Proper)
    (text : numeral.text = n.render) (value : numeral.value?.isSome = true) : n.Legible := by
  obtain ⟨m, hm⟩ := Option.isSome_iff_exists.mp value
  have alone := readNumeral_text proper ends_nil
  rw [List.append_nil, text] at alone
  have same : n.reread = m := by simp [reread, alone, hm]
  intro rest hr
  exact ⟨numeral, text ▸ readNumeral_text proper hr, by rw [hm, same]⟩

theorem ReadsBack.reread_eq {n : Number} (h : n.ReadsBack) : n.reread = n := by
  obtain ⟨numeral, read, value⟩ := h [] ends_nil
  rw [List.append_nil] at read
  simp [reread, read, value]

theorem ReadsBack.legible {n : Number} (h : n.ReadsBack) : n.Legible := by
  unfold Legible
  rwa [h.reread_eq]

theorem proper_integer (negative : Bool) (n : Nat) :
    Numeral.Proper ⟨negative, Nat.toDigits 10 n, [], none⟩ := by
  obtain ⟨c, ds, heq, hc⟩ := toDigits_cons n
  refine ⟨isDigit_toDigits n, by simp [heq], fun h => ?_, by simp, by simp⟩
  dsimp only at h ⊢
  rw [heq] at h ⊢
  obtain rfl : c = '0' := by simpa using h
  rw [(hc rfl).1]

theorem accumulate_toDigits (h : n < UInt64.size) :
    accumulate 0 (Nat.toDigits 10 n) = (n, (Nat.toDigits 10 n).length) := by
  have value : Nat.ofDigitChars 10 (Nat.toDigits 10 n) 0 = n := Nat.ofDigitChars_ten_toDigits
  rw [accumulate_eq _ _ (by rw [value]; exact h), value]

theorem value?_natural (h : n < UInt64.size) :
    Numeral.value? ⟨false, Nat.toDigits 10 n, [], none⟩ = some (.int n) := by
  simp [Numeral.value?, accumulate_toDigits h]

theorem value?_negative (hp : 0 < n) (h : n ≤ 9223372036854775808) :
    Numeral.value? ⟨true, Nat.toDigits 10 n, [], none⟩ = some (.int (-n)) := by
  have fits : n < UInt64.size := Nat.lt_of_le_of_lt h (by decide)
  simp [Numeral.value?, accumulate_toDigits fits, hp, h]

theorem IsInteger.readsBack (h : IsInteger n) : n.ReadsBack := by
  obtain ⟨value, rfl, low, high⟩ := h
  intro rest hr
  by_cases negative : value < 0
  · refine ⟨_, ?_, value?_negative (n := value.natAbs) (by omega) (by omega) |>.trans ?_⟩
    · simpa [render, negative, Numeral.text, Numeral.signText, Numeral.fractionText,
        Numeral.exponentText] using readNumeral_text (proper_integer true value.natAbs) hr
    · congr 2
      omega
  · refine ⟨_, ?_, value?_natural (n := value.natAbs) ?_ |>.trans ?_⟩
    · simpa [render, negative, Numeral.text, Numeral.signText, Numeral.fractionText,
        Numeral.exponentText] using readNumeral_text (proper_integer false value.natAbs) hr
    · show value.natAbs < 2 ^ 64
      omega
    · congr 2
      omega

-- ---------------------------------------------------------------------------
-- How a numeral begins
-- ---------------------------------------------------------------------------

theorem head_of_readWhole (h : readWhole text = .ok found) :
    ∃ c rest, text = c :: rest ∧ c.isDigit = true := by
  cases text with
  | nil => simp [readWhole, readDigits, digits, bind, Except.bind] at h
  | cons c rest =>
    refine ⟨c, rest, rfl, ?_⟩
    by_cases hc : c.isDigit = true
    · exact hc
    · simp [readWhole, readDigits, digits, hc, bind, Except.bind] at h

theorem head_of_readNumeral (h : readNumeral text = .ok found) :
    ∃ c rest, text = c :: rest ∧ (c = '-' ∨ c.isDigit = true) := by
  cases text with
  | nil => simp [readNumeral, readWhole, readDigits, digits, bind, Except.bind] at h
  | cons c rest =>
    refine ⟨c, rest, rfl, ?_⟩
    by_cases minus : c = '-'
    · exact .inl minus
    · right
      cases hw : readWhole (c :: rest) with
      | error fault => simp [readNumeral, minus, hw, bind, Except.bind] at h
      | ok found =>
        obtain ⟨_, _, heq, hc⟩ := head_of_readWhole hw
        cases heq
        exact hc

theorem Legible.head {n : Number} (h : n.Legible) :
    ∃ c rest, n.render = c :: rest ∧ (c = '-' ∨ c.isDigit = true) := by
  obtain ⟨numeral, hn, -⟩ := h [] ends_nil
  rw [List.append_nil] at hn
  exact head_of_readNumeral hn

end Federation.Number
