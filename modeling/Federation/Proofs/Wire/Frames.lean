import Federation.Frame
import Federation.Proofs.Json.Numerals
import Federation.Proofs.Text.Cuts

/-!
# Frames that are read back

A frame is read back from the text that is written for it, whatever its headers and its body hold.
Where a length is declared already it has to be right, and then no NUL may stand in the body. A
frame that opens a session escapes nothing, so there its headers must not hold what structures a
frame.
-/

namespace Federation

theorem Text.decimal?_toString (limit n : Nat) :
    decimal? limit (toString n) = if n < limit then some n else none := by
  have digits : (toString n).toList = Nat.toDigits 10 n := by simp
  have value : valueOf (Nat.toDigits 10 n) = n := Nat.ofDigitChars_ten_toDigits
  have all : (Nat.toDigits 10 n).all Char.isDigit = true :=
    List.all_eq_true.mpr (Number.isDigit_toDigits n)
  obtain ⟨c, rest, hc, -⟩ := Number.toDigits_cons n
  have plus : c ≠ '+' := by
    rintro rfl
    have digit := Number.isDigit_toDigits n '+' (hc ▸ List.mem_cons_self)
    revert digit
    decide
  rw [hc] at value all
  rw [decimal?, digits, hc]
  split
  case h_1 => simp_all
  case h_2 => simp [all, value]

namespace Frame

-- ---------------------------------------------------------------------------
-- Headers
-- ---------------------------------------------------------------------------

theorem unescape_cons {c : Char} (h : c ≠ '\\') (rest : List Char) :
    unescape (c :: rest) = (unescape rest).map (c :: ·) := by
  rw [unescape.eq_def]
  split <;> simp_all

theorem unescape_escape (text : List Char) : unescape (escape text) = .ok text := by
  induction text with
  | nil => rfl
  | cons c rest ih =>
    have step : escape (c :: rest) = escapeChar c ++ escape rest := rfl
    rw [step, escapeChar.eq_def]
    split
    case h_5 =>
      rename_i h1 h2 h3 h4
      rw [List.singleton_append, unescape_cons h1, ih]
      rfl
    all_goals simp [unescape, ih, Except.map]

theorem not_mem_escape {mark : Char} (h : mark ∈ ['\n', '\r', ':']) (text : List Char) :
    mark ∉ escape text := by
  intro hmem
  obtain ⟨c, -, hc⟩ := List.mem_flatMap.mp hmem
  simp only [List.mem_cons, List.not_mem_nil, or_false] at h
  rw [escapeChar.eq_def] at hc
  split at hc <;> rcases h with rfl | rfl | rfl <;> grind

def headerLine (header : String × String) : List Char :=
  escape header.1.toList ++ ':' :: escape header.2.toList

theorem headerLine_ne_nil (header : String × String) : headerLine header ≠ [] := by
  simp [headerLine]

theorem not_mem_headerLine {mark : Char} (h : mark = '\n' ∨ mark = '\r')
    (header : String × String) : mark ∉ headerLine header := by
  rw [headerLine, List.mem_append, List.mem_cons, not_or, not_or]
  have marked : mark ∈ ['\n', '\r', ':'] := by
    rcases h with rfl | rfl <;> decide
  have colon : mark ≠ ':' := by
    rcases h with rfl | rfl <;> decide
  exact ⟨not_mem_escape marked _, colon, not_mem_escape marked _⟩

theorem decodeHeader_headerLine (header : String × String) :
    decodeHeader true (headerLine header) = .ok header := by
  have colon : ':' ∉ escape header.1.toList := not_mem_escape (by decide) _
  rw [decodeHeader, headerLine, Text.splitOnce_append colon]
  simp [unescape_escape, bind, Except.bind]

theorem escape_eq_self {text : List Char} (h : ∀ c ∈ text, escapeChar c = [c]) :
    escape text = text := by
  induction text with
  | nil => rfl
  | cons c rest ih =>
    have first := h c List.mem_cons_self
    have later := ih fun d hd => h d (List.mem_cons_of_mem _ hd)
    rw [escape, List.flatMap_cons, first]
    exact congrArg (c :: ·) later

theorem encodeHeader_declaredLength (frame : Frame) :
    frame.declaredLength.flatMap (encodeHeader false) =
      frame.declaredLength.flatMap (encodeHeader true) := by
  have digits (n : Nat) : escape (toString n).toList = (toString n).toList := by
    refine escape_eq_self fun c hc => ?_
    have digit : c.isDigit = true := Number.isDigit_toDigits n c (by simpa using hc)
    rw [escapeChar.eq_def]
    split
    case h_5 => rfl
    all_goals
      revert digit
      decide
  have name : escape contentLength.toList = contentLength.toList := by decide
  rw [declaredLength]
  split
  · rfl
  · simp only [List.flatMap_singleton, encodeHeader, if_true, name, digits]
    rfl

-- ---------------------------------------------------------------------------
-- Frames
-- ---------------------------------------------------------------------------

def written (frame : Frame) : List (String × String) := frame.headers ++ frame.declaredLength

theorem declaredLength_written (frame : Frame) (command : Command) :
    declaredLength ⟨command, frame.written, frame.body⟩ = [] := by
  refine if_pos ?_
  by_cases empty : frame.body = ""
  · exact .inl empty
  · right
    cases given : frame.get? contentLength with
    | some value =>
      have found : frame.headers.lookup contentLength = some value := given
      simp [Frame.get?, written, List.lookup_append, found]
    | none =>
      have stated : frame.declaredLength = [(contentLength, toString frame.body.utf8ByteSize)] :=
        if_neg (by simp [empty, given])
      simp [Frame.get?, written, stated]

def line (escapes : Bool) (header : String × String) : List Char :=
  if escapes then headerLine header else header.1.toList ++ ':' :: header.2.toList

theorem encodeChars_eq (frame : Frame) :
    frame.encodeChars = frame.command.name.toList ++ '\n' ::
      ((frame.written.map (line frame.command.escapesHeaders)).flatMap (· ++ ['\n']) ++
        '\n' :: (frame.body.toList ++ ['\x00'])) := by
  have lines (headers : List (String × String)) :
      headers.flatMap (encodeHeader frame.command.escapesHeaders) =
        (headers.map (line frame.command.escapesHeaders)).flatMap (· ++ ['\n']) := by
    rw [List.flatMap_map]
    refine congrArg (headers.flatMap ·) (funext fun header => ?_)
    cases frame.command.escapesHeaders <;> simp [encodeHeader, line, headerLine]
  have declared : frame.declaredLength.flatMap (encodeHeader false) =
      frame.declaredLength.flatMap (encodeHeader frame.command.escapesHeaders) := by
    cases frame.command.escapesHeaders with
    | false => rfl
    | true => exact encodeHeader_declaredLength frame
  rw [encodeChars, declared, lines, lines, written, List.map_append, List.flatMap_append,
    List.append_assoc]

theorem takeWhile_ended {body : List Char} (whole : '\x00' ∉ body) (rest : List Char) :
    (body ++ '\x00' :: rest).takeWhile (· ≠ '\x00') = body := by
  rw [List.takeWhile_append_of_pos fun c hc => by simpa using ne_of_mem_of_not_mem hc whole]
  simp

theorem bodyOf_of_begins {body rest : List Char} (begins : body <+: rest) :
    bodyOf (some (String.ofList body).utf8ByteSize) rest = body := by
  have taken := Text.takeBytes_eq_some.mpr ⟨begins, rfl⟩
  simp [bodyOf, taken]

theorem bodyOf_append {declared : Option Nat} {body : String} (h : '\x00' ∉ body.toList)
    (hd : ∀ n, declared = some n → n = body.utf8ByteSize) :
    bodyOf declared (body.toList ++ ['\x00']) = body.toList := by
  cases declared with
  | none => exact takeWhile_ended h []
  | some n =>
    have cut := bodyOf_of_begins (List.prefix_append body.toList ['\x00'])
    rwa [String.ofList_toList, ← hd n rfl] at cut

theorem dropReturns_eq_self {line : List Char} (h : line.getLast? ≠ some '\r') :
    dropReturns line = line := by
  have kept : line.reverse.dropWhile (· == '\r') = line.reverse := by
    rw [← List.head?_reverse] at h
    cases last : line.reverse with
    | nil => rfl
    | cons c rest =>
      have hc : c ≠ '\r' := by simpa [last] using h
      simp [hc]
  rw [dropReturns, kept, List.reverse_reverse]

theorem dropReturns_of_not_mem {line : List Char} (h : '\r' ∉ line) : dropReturns line = line :=
  dropReturns_eq_self fun last => h (List.mem_of_getLast? last)

end Frame

theorem Command.name_line (command : Command) :
    '\n' ∉ command.name.toList ∧ '\r' ∉ command.name.toList ∧
      ∃ c rest, command.name.toList = c :: rest ∧ Frame.isLineEnd c = false ∧ c ≠ '\x00' := by
  cases command <;> exact ⟨by decide, by decide, _, _, rfl, by decide, by decide⟩

namespace Frame

/-- The frame has no NUL in its body, and states no length but the right one. -/
structure IsSound (frame : Frame) : Prop where
  escapes : frame.command.escapesHeaders = true
  body : '\x00' ∉ frame.body.toList
  length : ∀ value, frame.get? contentLength = some value →
    value = toString frame.body.utf8ByteSize

theorem IsSound.lookup_written {frame : Frame} (h : frame.IsSound)
    (hvalue : frame.written.lookup contentLength = some value) :
    value = toString frame.body.utf8ByteSize := by
  rw [written, List.lookup_append] at hvalue
  cases given : frame.headers.lookup contentLength with
  | some stated =>
    rw [given, Option.some_or, Option.some.injEq] at hvalue
    exact hvalue ▸ h.length stated given
  | none =>
    rw [given, Option.none_or, declaredLength] at hvalue
    split at hvalue
    · cases hvalue
    · simpa using hvalue.symm

/-- A line of a head that is taken for what it is: it is not passed over and not cut. -/
structure IsLine (line : List Char) : Prop where
  filled : line ≠ []
  whole : '\n' ∉ line
  kept : dropReturns line = line

/-- What is read once the head is found: its first line is the name of the command, and its other
lines, but for the empty ones, are the headers. -/
theorem decodeChars_of_head {command : Command} {text head rest : List Char}
    {lines : List (List Char)}
    (found : splitHead (command.name.toList ++ text) = some (head, rest))
    (cut : (Text.splitAtEach '\n' head).map dropReturns = command.name.toList :: lines) :
    decodeChars (command.name.toList ++ text) =
      ((lines.filter fun line => !line.isEmpty).mapM (decodeHeader command.escapesHeaders)).map
        fun headers => some ⟨command, headers,
          String.ofList (bodyOf ((headers.lookup contentLength).bind lengthOf?) rest)⟩ := by
  obtain ⟨-, -, c, tail, name, start, nul⟩ := command.name_line
  have named : String.ofList command.name.toList = command.name := String.ofList_toList
  -- The text begins with the name of the command, so nothing is dropped in front of it.
  have begun : (command.name.toList ++ text).dropWhile isLineEnd = command.name.toList ++ text := by
    rw [name]
    simp [start]
  have filled : ((command.name.toList ++ text).isEmpty ||
      command.name.toList ++ text == ['\x00']) = false := by
    rw [name]
    simp [nul]
  simp only [decodeChars, begun, filled, Bool.false_eq_true, if_false, found, cut,
    List.headD_cons, named, Command.ofName?_name, List.tail_cons]
  cases (lines.filter fun line => !line.isEmpty).mapM (decodeHeader command.escapesHeaders) <;> rfl

theorem decodeChars_lines {command : Command} {lines : List (List Char)}
    {pairs : List (String × String)} (h : ∀ line ∈ lines, IsLine line)
    (read : lines.mapM (decodeHeader command.escapesHeaders) = .ok pairs) (rest : List Char) :
    decodeChars (command.name.toList ++ '\n' :: (lines.flatMap (· ++ ['\n']) ++ '\n' :: rest)) =
      .ok (some ⟨command, pairs,
        String.ofList (bodyOf ((pairs.lookup contentLength).bind lengthOf?) rest)⟩) := by
  obtain ⟨newline, ret, -⟩ := command.name_line
  have breaks : ∀ line ∈ command.name.toList :: lines, '\n' ∉ line :=
    List.forall_mem_cons.mpr ⟨newline, fun line hline => (h line hline).whole⟩
  have returns : ∀ line ∈ command.name.toList :: lines, dropReturns line = line :=
    List.forall_mem_cons.mpr ⟨dropReturns_of_not_mem ret, fun line hline => (h line hline).kept⟩
  have kept : lines.filter (fun line => !line.isEmpty) = lines :=
    List.filter_eq_self.mpr fun line hline => by simpa using (h line hline).filled
  have shape : '\n' :: (lines.flatMap (· ++ ['\n']) ++ '\n' :: rest) =
      lines.flatMap ('\n' :: ·) ++ '\n' :: '\n' :: rest := Text.flatMap_ends ['\n'] lines _
  have found : splitHead
      (command.name.toList ++ (lines.flatMap ('\n' :: ·) ++ '\n' :: '\n' :: rest)) =
        some (command.name.toList ++ lines.flatMap ('\n' :: ·), rest) := by
    have blank : Text.splitOnceAt ['\n', '\n'] ('\n' :: '\n' :: rest) = some ([], rest) :=
      Text.splitOnceAt_self (by simp) rest
    have split := @Text.splitOnceAt_lines '\n' [] List.not_mem_nil lines command.name.toList breaks
      (fun line hline => (h line hline).filled) ('\n' :: rest)
    simp only [List.nil_append, blank] at split
    rw [splitHead, split]
    simp
  have cut : (Text.splitAtEach '\n' (command.name.toList ++ lines.flatMap ('\n' :: ·))).map
      dropReturns = command.name.toList :: lines := by
    rw [Text.splitAtEach_lines _ breaks, List.map_congr_left returns, List.map_id']
  rw [shape, decodeChars_of_head found cut, kept, read]
  rfl

-- ---------------------------------------------------------------------------
-- Headers that are read back
-- ---------------------------------------------------------------------------

def Legible (escapes : Bool) (header : String × String) : Prop :=
  escapes = true ∨ ':' ∉ header.1.toList ∧ '\n' ∉ header.1.toList ∧ '\n' ∉ header.2.toList ∧
    header.2.toList.getLast? ≠ some '\r'

theorem Legible.isLine (h : Legible escapes header) : IsLine (line escapes header) := by
  cases escapes with
  | true =>
    have returns : '\r' ∉ headerLine header := not_mem_headerLine (.inr rfl) header
    exact ⟨headerLine_ne_nil header, not_mem_headerLine (.inl rfl) header,
      dropReturns_of_not_mem returns⟩
  | false =>
    obtain marked | ⟨-, name, value, last⟩ := h
    · cases marked
    · refine ⟨by simp [line], by simp [line, name, value], dropReturns_eq_self ?_⟩
      simp only [line, Bool.false_eq_true, if_false, List.getLast?_append, List.getLast?_cons]
      cases ended : header.2.toList.getLast? with
      | none => simp
      | some c => simpa [ended] using last

theorem Legible.decodeHeader (h : Legible escapes header) :
    decodeHeader escapes (line escapes header) = .ok header := by
  cases escapes with
  | true => exact decodeHeader_headerLine header
  | false =>
    obtain marked | ⟨colon, -⟩ := h
    · cases marked
    · have cut : Text.splitOnce ':' (line false header) =
          some (header.1.toList, header.2.toList) := Text.splitOnce_append colon _
      simp [Frame.decodeHeader, cut]

theorem mapM_decodeHeader {escapes : Bool} {pairs : List (String × String)}
    (h : ∀ header ∈ pairs, Legible escapes header) :
    (pairs.map (line escapes)).mapM (Frame.decodeHeader escapes) = .ok pairs := by
  induction pairs with
  | nil => rfl
  | cons header rest ih =>
    obtain ⟨first, others⟩ := List.forall_mem_cons.mp h
    rw [List.map_cons, List.mapM_cons, first.decodeHeader, ih others]
    rfl

theorem decodeChars_legible {frame : Frame}
    (h : ∀ header ∈ frame.written, Legible frame.command.escapesHeaders header) :
    decodeChars frame.encodeChars = .ok (some ⟨frame.command, frame.written,
      String.ofList (bodyOf ((frame.written.lookup contentLength).bind lengthOf?)
        (frame.body.toList ++ ['\x00']))⟩) := by
  have lines : ∀ text ∈ frame.written.map (line frame.command.escapesHeaders), IsLine text := by
    rw [List.forall_mem_map]
    exact fun header hmem => (h header hmem).isLine
  rw [encodeChars_eq, decodeChars_lines lines (mapM_decodeHeader h)]

theorem decodeChars_written {frame : Frame}
    (h : ∀ header ∈ frame.written, Legible frame.command.escapesHeaders header)
    (body : bodyOf ((frame.written.lookup contentLength).bind lengthOf?)
      (frame.body.toList ++ ['\x00']) = frame.body.toList) :
    decodeChars frame.encodeChars = .ok (some { frame with headers := frame.written }) := by
  rw [decodeChars_legible h, body, String.ofList_toList]

theorem decodeChars_encodeChars {frame : Frame} (h : frame.IsSound) :
    decodeChars frame.encodeChars = .ok (some { frame with headers := frame.written }) := by
  refine decodeChars_written (fun header _ => .inl h.escapes) (bodyOf_append h.body fun n hn => ?_)
  obtain ⟨value, hvalue, hn⟩ := Option.bind_eq_some_iff.mp hn
  rw [h.lookup_written hvalue, lengthOf?, Text.decimal?_toString] at hn
  split at hn
  · exact (Option.some.inj hn).symm
  · cases hn

theorem IsSound.decode_encode {frame : Frame} (h : frame.IsSound) :
    decode frame.encode = .ok (some { frame with headers := frame.written }) := by
  rw [decode, encode, String.toList_ofList, decodeChars_encodeChars h]

-- ---------------------------------------------------------------------------
-- Frames that declare no length of their own
-- ---------------------------------------------------------------------------

variable {frame : Frame}

theorem declaredLength_unstated (unstated : ∀ header ∈ frame.headers, header.1 ≠ contentLength) :
    frame.headers.lookup contentLength = none ∧ frame.declaredLength =
      if frame.body = "" then [] else [(contentLength, toString frame.body.utf8ByteSize)] := by
  have absent : frame.headers.lookup contentLength = none :=
    List.lookup_eq_none_iff.mpr fun header hmem => by simpa using (unstated header hmem).symm
  have found : frame.get? contentLength = none := absent
  refine ⟨absent, ?_⟩
  rw [declaredLength, found]
  simp

theorem legible_declaredLength (escapes : Bool) :
    ∀ header ∈ frame.declaredLength, Legible escapes header := by
  intro header hmem
  rw [declaredLength] at hmem
  split at hmem
  · cases hmem
  · obtain rfl := List.mem_singleton.mp hmem
    have digits : ∀ c ∈ (toString frame.body.utf8ByteSize).toList, c.isDigit = true := by
      intro c hc
      exact Number.isDigit_toDigits _ c (by simpa using hc)
    have name : ':' ∉ contentLength.toList ∧ '\n' ∉ contentLength.toList := by decide
    refine .inr ⟨name.1, name.2, fun newline => ?_, fun last => ?_⟩
    · exact absurd (digits _ newline) (by decide)
    · exact absurd (digits _ (List.mem_of_getLast? last)) (by decide)

theorem length_written (unstated : ∀ header ∈ frame.headers, header.1 ≠ contentLength) :
    (frame.written.lookup contentLength).bind lengthOf? =
      if frame.body = "" then none
      else if frame.body.utf8ByteSize < UInt64.size then some frame.body.utf8ByteSize
      else none := by
  obtain ⟨absent, declared⟩ := declaredLength_unstated unstated
  rw [written, List.lookup_append, absent, Option.none_or, declared]
  split
  · rfl
  · rw [List.lookup_cons_self, Option.bind_some, lengthOf?, Text.decimal?_toString]

theorem eq_of_length_written (unstated : ∀ header ∈ frame.headers, header.1 ≠ contentLength)
    (read : (frame.written.lookup contentLength).bind lengthOf? = some n) :
    n = frame.body.utf8ByteSize := by
  rw [length_written unstated] at read
  split at read
  · cases read
  · split at read
    · exact (Option.some.inj read).symm
    · cases read

/-- The declared length finds the end of the body, and where it cannot be read the NUL does. -/
theorem bodyOf_written (unstated : ∀ header ∈ frame.headers, header.1 ≠ contentLength)
    (size : '\x00' ∈ frame.body.toList → frame.body.utf8ByteSize < UInt64.size) :
    bodyOf ((frame.written.lookup contentLength).bind lengthOf?) (frame.body.toList ++ ['\x00']) =
      frame.body.toList := by
  by_cases nul : '\x00' ∈ frame.body.toList
  · have filled : frame.body ≠ "" := by
      intro empty
      simp [empty] at nul
    have cut := bodyOf_of_begins (List.prefix_append frame.body.toList ['\x00'])
    rw [String.ofList_toList] at cut
    rw [length_written unstated, if_neg filled, if_pos (size nul), cut]
  · exact bodyOf_append nul fun n read => eq_of_length_written unstated read

/-- A frame that declares no length arrives as it was sent, with the length of its body if it has
one. A length is read as long as 64 bits hold it. -/
theorem decode_encode_unstated (frame : Frame)
    (unstated : ∀ header ∈ frame.headers, header.1 ≠ contentLength)
    (legible : ∀ header ∈ frame.headers, Legible frame.command.escapesHeaders header)
    (size : '\x00' ∈ frame.body.toList → frame.body.utf8ByteSize < UInt64.size) :
    decode frame.encode = .ok (some (if frame.body = "" then frame
      else { frame with
        headers := frame.headers ++ [(contentLength, toString frame.body.utf8ByteSize)] })) := by
  have all : ∀ header ∈ frame.written, Legible frame.command.escapesHeaders header := by
    intro header hmem
    rcases List.mem_append.mp hmem with hmem | hmem
    · exact legible header hmem
    · exact legible_declaredLength _ header hmem
  rw [decode, encode, String.toList_ofList, decodeChars_written all (bodyOf_written unstated size),
    written, (declaredLength_unstated unstated).2]
  by_cases empty : frame.body = ""
  · rw [if_pos empty, if_pos empty, List.append_nil]
  · rw [if_neg empty, if_neg empty]

/-- Header texts and a body full of what would end a line, a header or the frame itself. -/
def hostile : Frame :=
  ⟨.send, [("a:b\r", "\n\nSEND\n\\c"), ("", "x\x00"), ("", "")], "é\x00\n\n\x00"⟩

def greeting : Frame := ⟨.connect, [("pass\r", "p:w\\n\rd")], ""⟩

theorem decode_encode_hostile :
    decode hostile.encode =
        .ok (some { hostile with headers := hostile.headers ++ [("content-length", "6")] }) ∧
      decode greeting.encode = .ok (some greeting) :=
  ⟨decode_encode_unstated hostile (by decide) (by simp [Legible, hostile, Command.escapesHeaders])
      (by decide),
    decode_encode_unstated greeting (by decide) (by simp [Legible, greeting]) (by decide)⟩

end Frame

end Federation
