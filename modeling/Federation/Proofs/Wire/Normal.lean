import Mathlib.Data.List.DropRight
import Federation.Proofs.Store.Reading
import Federation.Proofs.Wire.Frames

/-!
# Reading normalises

A text can say the same frame in many ways: with either line end, with a length that is wrong or
does not end a character, with more behind its NUL. Whatever it was, the frame that was read is read
again from its own text, now with the length of its body, and from then on nothing changes. Only a
text in which no NUL follows the head can be an exception: a declared length that is one more than
there was is not reached in it, but is once the NUL is written.
-/

namespace Federation.Frame

-- ---------------------------------------------------------------------------
-- The head
-- ---------------------------------------------------------------------------

theorem getLast?_dropReturns (line : List Char) : (dropReturns line).getLast? ≠ some '\r' := by
  intro last
  rw [dropReturns, List.getLast?_reverse] at last
  have other := List.head?_dropWhile_not (· == '\r') line.reverse
  simp [last] at other

theorem whole_of_mem_lines {head line : List Char}
    (h : line ∈ (Text.splitAtEach '\n' head).map dropReturns) :
    '\n' ∉ line ∧ line.getLast? ≠ some '\r' := by
  obtain ⟨part, hmem, rfl⟩ := List.mem_map.mp h
  have kept : dropReturns part <+: part := List.rdropWhile_prefix (· == '\r') part
  exact ⟨fun newline => Text.not_mem_of_mem_splitAtEach hmem (kept.mem newline),
    getLast?_dropReturns part⟩

theorem legible_of_decodeHeader {escapes : Bool} {line : List Char} {header : String × String}
    (read : decodeHeader escapes line = .ok header) (whole : '\n' ∉ line)
    (kept : line.getLast? ≠ some '\r') : Legible escapes header := by
  cases escapes with
  | true => exact .inl rfl
  | false =>
    rw [decodeHeader] at read
    split at read
    case h_1 => cases read
    case h_2 name value parts =>
      obtain ⟨rfl, colon⟩ := Text.splitOnce_eq_some.mp parts
      cases read
      simp only [List.mem_append, List.mem_cons, not_or] at whole
      refine .inr ⟨by simpa using colon, by simpa using whole.1, by simpa using whole.2.2, ?_⟩
      intro last
      rw [String.toList_ofList] at last
      exact kept (by simp [List.getLast?_append, List.getLast?_cons, last])

theorem exists_of_decodeChars {text : List Char} {frame : Frame}
    (read : decodeChars text = .ok (some frame)) :
    ∃ head rest, splitHead (text.dropWhile isLineEnd) = some (head, rest) ∧
      (∀ header ∈ frame.headers, Legible frame.command.escapesHeaders header) ∧
      frame.body.toList = bodyOf ((frame.get? contentLength).bind lengthOf?) rest := by
  simp only [decodeChars] at read
  split at read
  · cases read
  split at read
  · cases read
  rename_i head rest found
  split at read
  · cases read
  rename_i command named
  obtain ⟨headers, lines, same⟩ := bind_ok read
  cases same
  refine ⟨head, rest, found, fun header hmem => ?_, String.toList_ofList⟩
  obtain ⟨line, hline, readHeader⟩ := (mem_mapM lines).mp hmem
  obtain ⟨whole, kept⟩ := whole_of_mem_lines (List.mem_of_mem_tail (List.mem_of_mem_filter hline))
  exact legible_of_decodeHeader readHeader whole kept

-- ---------------------------------------------------------------------------
-- The body
-- ---------------------------------------------------------------------------

theorem bodyOf_of_not_begins {declared : Option Nat} {rest : List Char}
    (misses : ∀ body, body <+: rest → declared ≠ some (String.ofList body).utf8ByteSize) :
    bodyOf declared rest = rest.takeWhile (· ≠ '\x00') := by
  have untaken : declared.bind (fun n => Text.takeBytes n rest) = none := by
    refine Option.eq_none_iff_forall_ne_some.mpr fun body taken => ?_
    obtain ⟨n, same, taken⟩ := Option.bind_eq_some_iff.mp taken
    obtain ⟨begins, rfl⟩ := Text.takeBytes_eq_some.mp taken
    exact misses body begins same
  rw [bodyOf, untaken, Option.getD_none]

/-- Where no beginning of the text has the declared length and no NUL ends it, it is read up to a new
NUL unless the length is reached with that one. -/
theorem bodyOf_concat_iff {declared : Option Nat} {rest : List Char}
    (misses : ∀ body, body <+: rest → declared ≠ some (String.ofList body).utf8ByteSize)
    (whole : '\x00' ∉ rest) :
    bodyOf declared (rest ++ ['\x00']) = rest ↔
      declared ≠ some ((String.ofList rest).utf8ByteSize + 1) := by
  have size : (String.ofList (rest ++ ['\x00'])).utf8ByteSize =
      (String.ofList rest).utf8ByteSize + 1 := by
    rw [String.ofList_append, String.utf8ByteSize_append]
    rfl
  rw [← size]
  by_cases reached : declared = some (String.ofList (rest ++ ['\x00'])).utf8ByteSize
  · rw [reached, bodyOf_of_begins List.prefix_rfl]
    exact iff_of_false (by simp) (not_not.mpr rfl)
  · refine iff_of_true ?_ reached
    rw [bodyOf_of_not_begins fun taken begins => ?_]
    · exact takeWhile_ended whole []
    · rcases List.prefix_concat_iff.mp begins with rfl | begins
      · exact reached
      · exact misses taken begins

theorem bodyOf_again_iff {declared : Option Nat} {rest : List Char} :
    bodyOf declared (bodyOf declared rest ++ ['\x00']) = bodyOf declared rest ↔
      '\x00' ∈ rest ∨ declared ≠ some ((String.ofList rest).utf8ByteSize + 1) := by
  by_cases fits : ∃ body, body <+: rest ∧ declared = some (String.ofList body).utf8ByteSize
  · obtain ⟨body, ⟨more, rfl⟩, rfl⟩ := fits
    rw [bodyOf_of_begins (List.prefix_append body more)]
    refine iff_of_true (bodyOf_of_begins (List.prefix_append body _)) (.inr fun same => ?_)
    rw [Option.some.injEq, String.ofList_append, String.utf8ByteSize_append] at same
    omega
  · simp only [not_exists, not_and] at fits
    rw [bodyOf_of_not_begins fits]
    by_cases nul : '\x00' ∈ rest
    · -- The body and its NUL begin the text, so no beginning of them has that length either.
      obtain ⟨body, after, rfl, whole⟩ := List.eq_append_cons_of_mem nul
      have kept : body ++ ['\x00'] <+: body ++ '\x00' :: after := ⟨after, by simp⟩
      rw [takeWhile_ended whole]
      refine iff_of_true ?_ (.inl nul)
      rw [bodyOf_of_not_begins fun taken begins => fits taken (begins.trans kept)]
      exact takeWhile_ended whole []
    · have all : rest.takeWhile (· ≠ '\x00') = rest :=
        List.takeWhile_eq_self_iff.mpr fun c hc => by simpa using ne_of_mem_of_not_mem hc nul
      rw [all, bodyOf_concat_iff fits nul, or_iff_right nul]

-- ---------------------------------------------------------------------------
-- The whole frame
-- ---------------------------------------------------------------------------

def withLength (frame : Frame) : Frame :=
  if frame.body = "" ∨ (frame.get? contentLength).isSome then frame
  else { frame with
    headers := frame.headers ++ [(contentLength, toString frame.body.utf8ByteSize)] }

theorem withLength_eq (frame : Frame) :
    frame.withLength = { frame with headers := frame.written } := by
  rw [withLength, written, declaredLength]
  split
  · rw [List.append_nil]
  · rfl

theorem encode_withLength (frame : Frame) : frame.withLength.encode = frame.encode := by
  have same : frame.withLength.written = frame.written := by
    rw [withLength_eq, written, declaredLength_written, List.append_nil]
  rw [encode, encode, encodeChars_eq, encodeChars_eq, same, withLength_eq]

variable {frame : Frame}

theorem decode_encode_iff
    (legible : ∀ header ∈ frame.headers, Legible frame.command.escapesHeaders header) :
    decode frame.encode = .ok (some frame.withLength) ↔
      bodyOf ((frame.written.lookup contentLength).bind lengthOf?) (frame.body.toList ++ ['\x00']) =
        frame.body.toList := by
  have all : ∀ header ∈ frame.written, Legible frame.command.escapesHeaders header :=
    List.forall_mem_append.mpr ⟨legible, legible_declaredLength _⟩
  rw [decode, encode, String.toList_ofList, decodeChars_legible all, withLength_eq]
  simp [← String.toList_inj]

/-- A frame that was read is read again from its own text, unless no NUL followed the head and the
declared length is one more than what did. -/
theorem decode_encode_iff_of_read {text : String} {head rest : List Char}
    (read : decode text = .ok (some frame))
    (found : splitHead (text.toList.dropWhile isLineEnd) = some (head, rest)) :
    decode frame.encode = .ok (some frame.withLength) ↔ '\x00' ∈ rest ∨
      (frame.get? contentLength).bind lengthOf? ≠ some ((String.ofList rest).utf8ByteSize + 1) := by
  obtain ⟨head', rest', found', legible, body⟩ := exists_of_decodeChars read
  cases found.symm.trans found'
  rw [decode_encode_iff legible]
  cases stated : frame.get? contentLength with
  | some value =>
    have given : frame.headers.lookup contentLength = some value := stated
    rw [written, List.lookup_append, given, Option.some_or, body, stated]
    exact bodyOf_again_iff
  | none =>
    have unstated : ∀ header ∈ frame.headers, header.1 ≠ contentLength := fun header hmem same => by
      simpa [same] using List.lookup_eq_none_iff.mp stated header hmem
    have whole : '\x00' ∉ frame.body.toList := by
      rw [body, stated]
      exact fun nul => by simpa using List.mem_takeWhile_imp nul
    exact iff_of_true (bodyOf_written unstated fun nul => absurd nul whole) (.inr (by simp))

example : decode "SEND\ncontent-length:2\n\na" =
      .ok (some ⟨.send, [("content-length", "2")], "a"⟩) ∧
    decode (encode ⟨.send, [("content-length", "2")], "a"⟩) =
      .ok (some ⟨.send, [("content-length", "2")], "a\x00"⟩) := ⟨rfl, rfl⟩

def IsEnded (text : String) : Prop :=
  ∃ head rest, splitHead (text.toList.dropWhile isLineEnd) = some (head, rest) ∧ '\x00' ∈ rest

/-- Whatever text a frame was read from, it is read again from its own text, with the length of its
body if it has one and declared none; and from the text of that frame it is read as it is. -/
theorem decode_encode_ended {text : String} (ended : IsEnded text)
    (read : decode text = .ok (some frame)) :
    decode frame.encode = .ok (some frame.withLength) ∧
      decode frame.withLength.encode = .ok (some frame.withLength) := by
  obtain ⟨head, rest, found, nul⟩ := ended
  have again := (decode_encode_iff_of_read read found).mpr (.inl nul)
  exact ⟨again, by rw [encode_withLength, again]⟩

/-- Lines end with carriage returns, and the length ends inside the only character of the body. -/
def muddled : String :=
  "\r\nMESSAGE\r\nnote:a:b\r\nnote:\\c\r\ncontent-length:1\r\n\r\né\x00more\x00"

def cleared : Frame := ⟨.message, [("note", "a:b"), ("note", ":"), ("content-length", "1")], "é"⟩

/-- The command goes by its other name, and the text goes on behind the NUL. -/
def opening : String := "STOMP\nlogin:p:w\\n\nx\ry:z\r\n\nbody\x00\n\nmore"

def opened : Frame := ⟨.connect, [("login", "p:w\\n"), ("x\ry", "z")], "body"⟩

theorem decode_encode_ended_samples :
    decode muddled = .ok (some cleared) ∧ decode cleared.encode = .ok (some cleared) ∧
      decode opening = .ok (some opened) ∧ decode opened.encode =
        .ok (some { opened with headers := opened.headers ++ [("content-length", "4")] }) := by
  have read : decode muddled = .ok (some cleared) := rfl
  have reopened : decode opening = .ok (some opened) := rfl
  have again := decode_encode_ended ⟨_, "é\x00more\x00".toList, rfl, by decide⟩ read
  have declared := decode_encode_ended ⟨_, "body\x00\n\nmore".toList, rfl, by decide⟩ reopened
  exact ⟨read, again.1, reopened, declared.1⟩

end Federation.Frame
