import Mathlib.Data.List.Basic
import Federation.Text.Split

/-!
# Where a text is cut

A text is cut at every occurrence of a character, at the first one of a character or a pattern, or
after a number of bytes. The parts make up the text again, and what it is cut at does not stand in
front of a cut.
-/

namespace Federation.Text

-- ---------------------------------------------------------------------------
-- At every occurrence
-- ---------------------------------------------------------------------------

theorem splitAtEach_of_not_mem {mark : Char} {part : List Char} (h : mark ∉ part) :
    splitAtEach mark part = [part] := by
  induction part with
  | nil => rfl
  | cons c rest ih =>
    rw [List.mem_cons, not_or] at h
    obtain ⟨hc, hrest⟩ := h
    simp [splitAtEach, Ne.symm hc, ih hrest]

theorem splitAtEach_append {mark : Char} {part : List Char} (h : mark ∉ part)
    (rest : List Char) :
    splitAtEach mark (part ++ mark :: rest) = part :: splitAtEach mark rest := by
  induction part with
  | nil => simp [splitAtEach]
  | cons c more ih =>
    rw [List.mem_cons, not_or] at h
    obtain ⟨hc, hmore⟩ := h
    simp [splitAtEach, Ne.symm hc, ih hmore]

theorem splitAtEach_lines {mark : Char} {lines : List (List Char)} (first : List Char)
    (h : ∀ line ∈ first :: lines, mark ∉ line) :
    splitAtEach mark (first ++ lines.flatMap (mark :: ·)) = first :: lines := by
  induction lines generalizing first with
  | nil => simpa using splitAtEach_of_not_mem (h first List.mem_cons_self)
  | cons second rest ih =>
    rw [List.flatMap_cons, List.cons_append,
      splitAtEach_append (h first List.mem_cons_self),
      ih second fun line hline => h line (List.mem_cons_of_mem _ hline)]

theorem exists_lines (mark : Char) (text : List Char) :
    ∃ first lines, text = first ++ lines.flatMap (mark :: ·) ∧
      ∀ line ∈ first :: lines, mark ∉ line := by
  induction text with
  | nil => exact ⟨[], [], by simp⟩
  | cons c rest ih =>
    obtain ⟨first, lines, rfl, clear⟩ := ih
    by_cases same : c = mark
    · refine ⟨[], first :: lines, by simp [same], ?_⟩
      simpa using clear
    · refine ⟨c :: first, lines, by simp, ?_⟩
      simpa [Ne.symm same] using clear

theorem not_mem_of_mem_splitAtEach {mark : Char} {text part : List Char}
    (h : part ∈ splitAtEach mark text) : mark ∉ part := by
  obtain ⟨first, lines, rfl, clear⟩ := exists_lines mark text
  rw [splitAtEach_lines first clear] at h
  exact clear part h

/-- Lines that are ended are lines with ends between them, and one more. -/
theorem flatMap_ends (ending : List Char) (lines : List (List Char)) (text : List Char) :
    ending ++ (lines.flatMap (· ++ ending) ++ text) =
      lines.flatMap (ending ++ ·) ++ (ending ++ text) := by
  induction lines with
  | nil => rfl
  | cons line rest ih => simp [ih]

-- ---------------------------------------------------------------------------
-- At the first occurrence
-- ---------------------------------------------------------------------------

theorem splitOnce_eq_some {mark : Char} {text before after : List Char} :
    splitOnce mark text = some (before, after) ↔
      text = before ++ mark :: after ∧ mark ∉ before := by
  refine ⟨fun h => ?_, fun ⟨same, clear⟩ => same ▸ splitOnce_append clear after⟩
  induction text generalizing before with
  | nil => cases h
  | cons c rest ih =>
    rw [splitOnce] at h
    split at h
    case isTrue marks =>
      cases h
      exact ⟨by rw [marks, List.nil_append], List.not_mem_nil⟩
    case isFalse other =>
      obtain ⟨⟨front, _⟩, found, same⟩ := Option.map_eq_some_iff.mp h
      cases same
      obtain ⟨rfl, clear⟩ := ih found
      exact ⟨rfl, List.not_mem_cons_of_ne_of_not_mem (Ne.symm other) clear⟩

theorem splitOnceAt_self {pattern : List Char} (h : pattern ≠ []) (rest : List Char) :
    splitOnceAt pattern (pattern ++ rest) = some ([], rest) := by
  obtain ⟨c, more, rfl⟩ := List.exists_cons_of_ne_nil h
  have found : (c :: more).isPrefixOf (c :: (more ++ rest)) = true :=
    List.isPrefixOf_iff_prefix.mpr (List.prefix_append (c :: more) rest)
  rw [List.cons_append, splitOnceAt, if_pos found]
  simp

theorem splitOnceAt_cons {pattern rest : List Char} {c : Char} (h : ¬ pattern <+: c :: rest) :
    splitOnceAt pattern (c :: rest) =
      (splitOnceAt pattern rest).map fun (before, after) => (c :: before, after) := by
  rw [splitOnceAt, if_neg (mt List.isPrefixOf_iff_prefix.mp h)]

theorem splitOnceAt_append {m : Char} {line : List Char} (h : m ∉ line) (pattern text : List Char) :
    splitOnceAt (m :: pattern) (line ++ text) =
      (splitOnceAt (m :: pattern) text).map fun (before, after) => (line ++ before, after) := by
  induction line with
  | nil => simp
  | cons c rest ih =>
    rw [List.mem_cons, not_or] at h
    have other : ¬ m :: pattern <+: c :: (rest ++ text) :=
      fun begins => h.1 (List.cons_prefix_cons.mp begins).1
    rw [List.cons_append, splitOnceAt_cons other, ih h.2, Option.map_map]
    rfl

/-- Lines that each end in the same way hold no blank line, so it is looked for behind them. -/
theorem splitOnceAt_lines {m : Char} {ending : List Char} (whole : m ∉ ending)
    {lines : List (List Char)} (first : List Char) (h : ∀ line ∈ first :: lines, m ∉ line)
    (filled : ∀ line ∈ lines, line ≠ []) (text : List Char) :
    splitOnceAt (m :: (ending ++ m :: ending))
        (first ++ ((lines.flatMap fun line => m :: (ending ++ line)) ++ m :: (ending ++ text))) =
      (splitOnceAt (m :: (ending ++ m :: ending)) (m :: (ending ++ text))).map
        fun (before, after) =>
          (first ++ ((lines.flatMap fun line => m :: (ending ++ line)) ++ before), after) := by
  have clear := h first List.mem_cons_self
  rw [splitOnceAt_append clear]
  induction lines generalizing first with
  | nil => rfl
  | cons second more ih =>
    have later := h second (by simp)
    obtain ⟨c, rest, rfl⟩ := List.exists_cons_of_ne_nil (filled second List.mem_cons_self)
    have other (text : List Char) :
        ¬ m :: (ending ++ m :: ending) <+: m :: (ending ++ ((c :: rest) ++ text)) := by
      rw [List.cons_append, List.cons_prefix_cons, List.prefix_append_right_inj,
        List.cons_prefix_cons]
      rintro ⟨-, rfl, -⟩
      exact later List.mem_cons_self
    have found := ih (c :: rest) (fun line hline => h line (List.mem_cons_of_mem _ hline))
      (fun line hline => filled line (List.mem_cons_of_mem _ hline)) later
    have shape (tail : List Char) :
        (((c :: rest) :: more).flatMap fun line => m :: (ending ++ line)) ++ tail =
          m :: (ending ++ ((c :: rest) ++
            ((more.flatMap fun line => m :: (ending ++ line)) ++ tail))) := by
      simp
    rw [shape, splitOnceAt_cons (other _), splitOnceAt_append whole, splitOnceAt_append later,
      found]
    simp [Option.map_map, Function.comp_def]

theorem splitOnceAt_eq_none {pattern text : List Char} :
    splitOnceAt pattern text = none ↔ ¬ pattern <:+: text := by
  induction text with
  | nil => cases pattern <;> simp [splitOnceAt]
  | cons c rest ih =>
    rw [List.infix_cons_iff, not_or, ← ih]
    by_cases begins : pattern <+: c :: rest
    · simp [splitOnceAt, List.isPrefixOf_iff_prefix.mpr begins, begins]
    · simp [splitOnceAt_cons begins, begins]

theorem eq_of_splitOnceAt {pattern text before after : List Char}
    (h : splitOnceAt pattern text = some (before, after)) : text = before ++ pattern ++ after := by
  induction text generalizing before with
  | nil =>
    rw [splitOnceAt] at h
    split at h
    · cases h
      simp_all
    · cases h
  | cons c rest ih =>
    by_cases begins : pattern <+: c :: rest
    · obtain ⟨more, same⟩ := begins
      rw [splitOnceAt, if_pos (List.isPrefixOf_iff_prefix.mpr ⟨more, same⟩), ← same,
        List.drop_left] at h
      cases h
      rw [List.nil_append, same]
    · rw [splitOnceAt_cons begins] at h
      obtain ⟨⟨before, _⟩, found, same⟩ := Option.map_eq_some_iff.mp h
      cases same
      rw [ih found]
      simp

-- ---------------------------------------------------------------------------
-- After a number of bytes
-- ---------------------------------------------------------------------------

theorem utf8ByteSize_ofList_cons (c : Char) (rest : List Char) :
    (String.ofList (c :: rest)).utf8ByteSize = c.utf8Size + (String.ofList rest).utf8ByteSize := by
  rw [String.ofList_cons, String.utf8ByteSize_append, String.utf8ByteSize_singleton]

theorem takeBytes_append (chars rest : List Char) :
    takeBytes (String.ofList chars).utf8ByteSize (chars ++ rest) = some chars := by
  induction chars with
  | nil =>
    have size : (String.ofList []).utf8ByteSize = 0 := rfl
    rw [size, takeBytes.eq_def]
  | cons c more ih =>
    obtain ⟨n, hn⟩ : ∃ n, c.utf8Size + (String.ofList more).utf8ByteSize = n + 1 :=
      ⟨_, (Nat.sub_add_cancel (Nat.le_add_right_of_le c.utf8Size_pos)).symm⟩
    have left : n + 1 - c.utf8Size = (String.ofList more).utf8ByteSize := by omega
    rw [utf8ByteSize_ofList_cons, hn, List.cons_append, takeBytes, if_pos (by omega), left, ih]
    rfl

theorem takeBytes_eq_some {n : Nat} {text taken : List Char} :
    takeBytes n text = some taken ↔ taken <+: text ∧ (String.ofList taken).utf8ByteSize = n := by
  constructor
  · intro h
    induction text generalizing n taken with
    | nil =>
      cases n <;> cases h
      exact ⟨List.nil_prefix, rfl⟩
    | cons c rest ih =>
      cases n with
      | zero =>
        cases h
        exact ⟨List.nil_prefix, rfl⟩
      | succ n =>
        rw [takeBytes] at h
        split at h
        · obtain ⟨more, took, rfl⟩ := Option.map_eq_some_iff.mp h
          obtain ⟨begins, size⟩ := ih took
          refine ⟨List.cons_prefix_cons.mpr ⟨rfl, begins⟩, ?_⟩
          rw [utf8ByteSize_ofList_cons]
          omega
        · cases h
  · rintro ⟨⟨rest, rfl⟩, rfl⟩
    exact takeBytes_append taken rest

end Federation.Text
