import Federation.Json.Printer
import Federation.Json.Reader

/-!
# Strings that are read back

A string is written with the escapes it needs and nothing else. Reading takes
each of them back, so what a string holds never matters to the text around it.
-/

namespace Federation.Document

open Json (escapeChar renderString)

-- ---------------------------------------------------------------------------
-- One character
-- ---------------------------------------------------------------------------

theorem hexValue?_digitChar : ∀ n < 16, hexValue? (Nat.digitChar n) = some n := by decide

/-- The pieces that stand for a character: itself, or the number of a control. -/
def StringPiece.Names (piece : StringPiece) (c : Char) : Prop :=
  piece = .char c ∨ c.toNat < 0x20 ∧ piece = .code c.toNat

theorem StringPiece.Names.join {piece : StringPiece} (h : piece.Names c)
    (hp : joinHalves pieces = .ok chars) : joinHalves (piece :: pieces) = .ok (c :: chars) := by
  rcases h with rfl | ⟨hc, rfl⟩
  · simp [joinHalves, hp, bind, Except.bind]
  · have high : isHighHalf c.toNat = false := by
      simp only [isHighHalf, Bool.and_eq_false_iff, decide_eq_false_iff_not]
      omega
    have low : isLowHalf c.toNat = false := by
      simp only [isLowHalf, Bool.and_eq_false_iff, decide_eq_false_iff_not]
      omega
    rw [joinHalves.eq_def]
    simp [high, low, hp, Char.ofNat_toNat, bind, Except.bind]

theorem readPieces_escaped {c d : Char} (h : escaped? c = some d) (hu : c ≠ 'u')
    (hr : readPieces rest = .ok (pieces, tail)) :
    readPieces ('\\' :: c :: rest) = .ok (.char d :: pieces, tail) := by
  rw [readPieces.eq_def]
  simp [h, hu, hr, bind, Except.bind]

theorem readPieces_control {c : Char} (hc : c.toNat < 0x20)
    (hr : readPieces rest = .ok (pieces, tail)) :
    readPieces ('\\' :: 'u' :: '0' :: '0' :: Nat.digitChar (c.toNat / 16) ::
      Nat.digitChar (c.toNat % 16) :: rest) = .ok (.code c.toNat :: pieces, tail) := by
  have zero : hexValue? '0' = some 0 := by decide
  have sum : 16 * (c.toNat / 16) + c.toNat % 16 = c.toNat := Nat.div_add_mod _ _
  rw [readPieces.eq_def]
  simp [zero, hexValue?_digitChar _ (show c.toNat / 16 < 16 by omega),
    hexValue?_digitChar _ (show c.toNat % 16 < 16 by omega), hr, sum, bind, Except.bind]

theorem readPieces_plain {c : Char} (hq : c ≠ '"') (hb : c ≠ '\\') (hc : ¬ c.toNat < 0x20)
    (hr : readPieces rest = .ok (pieces, tail)) :
    readPieces (c :: rest) = .ok (.char c :: pieces, tail) := by
  rw [readPieces.eq_def]
  simp [hb, hc, hr, bind, Except.bind]

theorem readPieces_escapeChar (c : Char) (hr : readPieces rest = .ok (pieces, tail)) :
    ∃ piece : StringPiece, piece.Names c ∧
      readPieces (escapeChar c ++ rest) = .ok (piece :: pieces, tail) := by
  unfold escapeChar
  split
  case h_8 =>
    split
    · rename_i hc
      exact ⟨.code c.toNat, .inr ⟨hc, rfl⟩, readPieces_control hc hr⟩
    · rename_i hq hb _ _ _ _ _ hc
      exact ⟨.char c, .inl rfl, readPieces_plain hq hb hc hr⟩
  all_goals exact ⟨_, .inl rfl, readPieces_escaped (by decide) (by decide) hr⟩

-- ---------------------------------------------------------------------------
-- Whole strings
-- ---------------------------------------------------------------------------

theorem readPieces_flatMap (chars rest : List Char) :
    ∃ pieces, readPieces (chars.flatMap escapeChar ++ '"' :: rest) = .ok (pieces, rest) ∧
      joinHalves pieces = .ok chars := by
  induction chars with
  | nil => exact ⟨[], by simp [readPieces], rfl⟩
  | cons c chars ih =>
    obtain ⟨pieces, hr, hj⟩ := ih
    obtain ⟨piece, hn, hp⟩ := readPieces_escapeChar c hr
    exact ⟨piece :: pieces, by simpa using hp, hn.join hj⟩

theorem renderString_append (s : String) (rest : List Char) :
    renderString s ++ rest = '"' :: (s.toList.flatMap escapeChar ++ '"' :: rest) := by
  simp [renderString]

theorem readString_render (s : String) (rest : List Char) :
    readString (s.toList.flatMap escapeChar ++ '"' :: rest) = .ok (.ok s, rest) := by
  obtain ⟨pieces, hr, hj⟩ := readPieces_flatMap s.toList rest
  simp [readString, hr, hj, bind, Except.bind, Except.map]

end Federation.Document
