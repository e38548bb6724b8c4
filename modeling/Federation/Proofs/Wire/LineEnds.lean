import Mathlib.Data.List.DropRight
import Federation.Proofs.Store.Reading
import Federation.Proofs.Wire.Frames

/-!
# Line ends

A frame may also be written with a carriage return before each newline of its head. It is then read
as it is from plain newlines, unless its body begins with a newline or has two of them in a row: a
blank line is first looked for between plain newlines, and such a body has one.
-/

namespace Federation

namespace Frame

def headerLines (frame : Frame) : List (List Char) :=
  frame.written.map (line frame.command.escapesHeaders)

def encodeCharsWith (ending : List Char) (frame : Frame) : List Char :=
  (frame.command.name.toList :: (frame.headerLines ++ [[]])).flatMap (· ++ ending) ++
    (frame.body.toList ++ ['\x00'])

def encodeWith (ending : String) (frame : Frame) : String :=
  String.ofList (frame.encodeCharsWith ending.toList)

theorem encodeWith_newline (frame : Frame) : frame.encodeWith "\n" = frame.encode := by
  have ending : "\n".toList = ['\n'] := rfl
  rw [encodeWith, encode, encodeChars_eq, encodeCharsWith, ending, headerLines]
  simp

theorem dropReturns_concat (line : List Char) : dropReturns (line ++ ['\r']) = dropReturns line :=
  List.rdropWhile_concat_pos _ _ _ (by decide)

theorem splitAtEach_returns {lines : List (List Char)} (first : List Char)
    (clear : ∀ text ∈ first :: lines, '\n' ∉ text ∧ '\r' ∉ text) :
    (Text.splitAtEach '\n' (first ++ lines.flatMap (['\r', '\n'] ++ ·))).map dropReturns =
      first :: lines := by
  obtain ⟨newline, ret⟩ := clear first List.mem_cons_self
  induction lines generalizing first with
  | nil => simp [Text.splitAtEach_of_not_mem newline, dropReturns_of_not_mem ret]
  | cons second rest ih =>
    have others : ∀ text ∈ second :: rest, '\n' ∉ text ∧ '\r' ∉ text :=
      fun text hmem => clear text (List.mem_cons_of_mem _ hmem)
    have ended : '\n' ∉ first ++ ['\r'] := by simpa using newline
    have shape : first ++ (second :: rest).flatMap (['\r', '\n'] ++ ·) =
        (first ++ ['\r']) ++ '\n' :: (second ++ rest.flatMap (['\r', '\n'] ++ ·)) := by
      simp
    obtain ⟨newline, ret'⟩ := others second List.mem_cons_self
    rw [shape, Text.splitAtEach_append ended, List.map_cons, dropReturns_concat,
      dropReturns_of_not_mem ret, ih second others newline ret']

theorem dropReturns_eq_nil {line : List Char} : dropReturns line = [] ↔ ∀ c ∈ line, c = '\r' := by
  have dropped : dropReturns line = line.rdropWhile (· == '\r') := rfl
  rw [dropped, List.rdropWhile_eq_nil_iff]
  simp

theorem filter_dropReturns_eq_nil {lines : List (List Char)} :
    (lines.map dropReturns).filter (fun line => !line.isEmpty) = [] ↔
      ∀ line ∈ lines, ∀ c ∈ line, c = '\r' := by
  rw [List.filter_eq_nil_iff, List.forall_mem_map]
  refine forall₂_congr fun line _ => ?_
  rw [← dropReturns_eq_nil]
  simp

theorem bodyOf_ne {declared : Option Nat} {body skipped rest : List Char}
    (whole : ∀ n, declared = some n → n = (String.ofList body).utf8ByteSize)
    (same : skipped ++ rest = body ++ ['\x00']) (filled : skipped ≠ [])
    (clear : '\x00' ∉ skipped) : bodyOf declared rest ≠ bodyOf declared (body ++ ['\x00']) := by
  intro equal
  have through : (body ++ ['\x00']).takeWhile (· ≠ '\x00') =
      skipped ++ rest.takeWhile (· ≠ '\x00') := by
    rw [← same]
    refine List.takeWhile_append_of_pos fun c hc => ?_
    simpa using ne_of_mem_of_not_mem hc clear
  have apart (text : List Char) : text ≠ skipped ++ text :=
    fun h => filled (List.self_eq_append_left.mp h)
  cases declared with
  | none => exact apart _ (equal.trans through)
  | some n =>
    rw [whole n rfl, bodyOf_of_begins (List.prefix_append body _), bodyOf,
      Option.bind_some] at equal
    cases taken : Text.takeBytes (String.ofList body).utf8ByteSize rest with
    | none =>
      rw [taken, Option.getD_none] at equal
      have free : '\x00' ∉ body := by
        rw [← equal]
        exact fun nul => by simpa using List.mem_takeWhile_imp nul
      rw [takeWhile_ended free, equal] at through
      exact apart body through
    | some text =>
      rw [taken, Option.getD_some] at equal
      subst equal
      obtain ⟨more, rfl⟩ := (Text.takeBytes_eq_some.mp taken).1
      -- The NUL at the end has to be among what is left, so there is no room for what is skipped.
      have nuls := congrArg (List.count '\x00') same
      have length := congrArg List.length same
      have free := List.count_eq_zero.mpr clear
      have fits := List.count_le_length (a := '\x00') (l := more)
      have room := List.length_pos_iff.mpr filled
      simp only [List.count_append, List.length_append, List.count_singleton_self,
        List.length_singleton] at nuls length
      omega

variable {frame : Frame}

theorem encodeCharsWith_eq (ending : List Char) (frame : Frame) :
    frame.encodeCharsWith ending = frame.command.name.toList ++
      ((frame.headerLines ++ [[]]).flatMap (ending ++ ·) ++
        (ending ++ (frame.body.toList ++ ['\x00']))) := by
  rw [encodeCharsWith, List.flatMap_cons, List.append_assoc, List.append_assoc, Text.flatMap_ends]

theorem encodeCharsWith_returns (frame : Frame) :
    frame.encodeCharsWith ['\r', '\n'] = (frame.command.name.toList ++ ['\r']) ++
      (((frame.headerLines ++ [[]]).map (· ++ ['\r'])).flatMap ('\n' :: ·) ++
        '\n' :: (frame.body.toList ++ ['\x00'])) := by
  have ends (lines : List (List Char)) : lines.flatMap (· ++ ['\r', '\n']) =
      (lines.map (· ++ ['\r'])).flatMap (· ++ ['\n']) := by
    rw [List.flatMap_map]
    simp
  rw [encodeCharsWith, ends, List.map_cons, List.flatMap_cons, List.append_assoc,
    List.append_assoc _ ['\n'], Text.flatMap_ends]
  rfl

section Escapes

variable (escapes : frame.command.escapesHeaders = true)

include escapes

theorem filled_headerLines : ∀ text ∈ frame.headerLines, text ≠ [] :=
  List.forall_mem_map.mpr fun _ _ => (Legible.isLine (.inl escapes)).filled

theorem clear_headerLines :
    ∀ text ∈ frame.command.name.toList :: frame.headerLines, '\n' ∉ text ∧ '\r' ∉ text := by
  obtain ⟨newline, ret, -⟩ := frame.command.name_line
  refine List.forall_mem_cons.mpr ⟨⟨newline, ret⟩, List.forall_mem_map.mpr fun header _ => ?_⟩
  rw [line, if_pos escapes]
  exact ⟨not_mem_headerLine (.inl rfl) header, not_mem_headerLine (.inr rfl) header⟩

theorem mapM_headerLines :
    frame.headerLines.mapM (decodeHeader frame.command.escapesHeaders) = .ok frame.written :=
  mapM_decodeHeader fun _ _ => .inl escapes

theorem decodeChars_escaped : decodeChars frame.encodeChars =
    .ok (some ⟨frame.command, frame.written,
      String.ofList (bodyOf ((frame.written.lookup contentLength).bind lengthOf?)
        (frame.body.toList ++ ['\x00']))⟩) :=
  decodeChars_legible fun _ _ => .inl escapes

theorem clear_headLines : ∀ text ∈ frame.command.name.toList :: (frame.headerLines ++ [[]]),
    '\n' ∉ text ∧ '\r' ∉ text := by
  rw [← List.cons_append, List.forall_mem_append]
  exact ⟨clear_headerLines escapes, by simp⟩

theorem clear_returned : ∀ text ∈ (frame.command.name.toList :: (frame.headerLines ++ [[]])).map
    (· ++ ['\r']), '\n' ∉ text :=
  List.forall_mem_map.mpr fun text hmem => by simpa using (clear_headLines escapes text hmem).1

theorem dropReturns_returned :
    ((frame.command.name.toList :: (frame.headerLines ++ [[]])).map (· ++ ['\r'])).map dropReturns =
      frame.command.name.toList :: (frame.headerLines ++ [[]]) := by
  rw [List.map_map]
  refine (List.map_congr_left fun text hmem => ?_).trans (List.map_id' _)
  exact (dropReturns_concat text).trans
    (dropReturns_of_not_mem (clear_headLines escapes text hmem).2)

theorem splitOnceAt_returns :
    Text.splitOnceAt ['\n', '\n'] (frame.encodeCharsWith ['\r', '\n']) =
      (Text.splitOnceAt ['\n', '\n'] ('\n' :: (frame.body.toList ++ ['\x00']))).map
        fun (before, after) => (frame.command.name.toList ++ ['\r'] ++
          (((frame.headerLines ++ [[]]).map (· ++ ['\r'])).flatMap ('\n' :: ·) ++ before),
            after) := by
  rw [encodeCharsWith_returns]
  refine Text.splitOnceAt_lines List.not_mem_nil _ (clear_returned escapes) ?_ _
  exact List.forall_mem_map.mpr fun text _ => List.append_ne_nil_of_right_ne_nil _ (by simp)

/-- Without a blank line in the body the one that ends the head is found. -/
theorem decodeChars_returns
    (plain : Text.splitOnceAt ['\n', '\n'] ('\n' :: (frame.body.toList ++ ['\x00'])) = none) :
    decodeChars (frame.encodeCharsWith ['\r', '\n']) = decodeChars frame.encodeChars := by
  have absent := splitOnceAt_returns escapes
  have split := @Text.splitOnceAt_lines '\r' ['\n'] (by decide) frame.headerLines
    frame.command.name.toList (fun text hmem => (clear_headerLines escapes text hmem).2)
    (filled_headerLines escapes) ('\r' :: '\n' :: (frame.body.toList ++ ['\x00']))
  have blank : Text.splitOnceAt ['\r', '\n', '\r', '\n']
      ('\r' :: '\n' :: '\r' :: '\n' :: (frame.body.toList ++ ['\x00'])) =
        some ([], frame.body.toList ++ ['\x00']) := Text.splitOnceAt_self (by simp) _
  have kept : frame.headerLines.filter (fun text => !text.isEmpty) = frame.headerLines :=
    List.filter_eq_self.mpr fun text hmem => by simpa using filled_headerLines escapes text hmem
  have shape : frame.encodeCharsWith ['\r', '\n'] = frame.command.name.toList ++
      (frame.headerLines.flatMap (['\r', '\n'] ++ ·) ++
        '\r' :: '\n' :: '\r' :: '\n' :: (frame.body.toList ++ ['\x00'])) := by
    rw [encodeCharsWith_eq]
    simp
  have found : splitHead (frame.encodeCharsWith ['\r', '\n']) =
      some (frame.command.name.toList ++ frame.headerLines.flatMap (['\r', '\n'] ++ ·),
        frame.body.toList ++ ['\x00']) := by
    simp only [List.singleton_append, blank] at split
    rw [splitHead, absent, plain, shape]
    exact split.trans (by simp)
  have cut := splitAtEach_returns _ (clear_headerLines escapes)
  rw [shape] at found ⊢
  rw [decodeChars_of_head found cut, kept, mapM_headerLines escapes, decodeChars_escaped escapes]
  rfl

/-- With a blank line in the body, the head is taken to go on up to it. -/
theorem decodeChars_returns_of_blank {before after : List Char}
    (blank : Text.splitOnceAt ['\n', '\n'] ('\n' :: (frame.body.toList ++ ['\x00'])) =
      some (before, after)) :
    ∃ lines : List (List Char), before = lines.flatMap ('\n' :: ·) ∧
      decodeChars (frame.encodeCharsWith ['\r', '\n']) =
        (((lines.map dropReturns).filter fun text => !text.isEmpty).mapM
          (decodeHeader frame.command.escapesHeaders)).map fun headers =>
            some ⟨frame.command, frame.written ++ headers,
              String.ofList (bodyOf (((frame.written ++ headers).lookup contentLength).bind
                lengthOf?) after)⟩ := by
  have parts := Text.eq_of_splitOnceAt blank
  obtain ⟨lines, rfl, clear⟩ : ∃ lines : List (List Char),
      before = lines.flatMap ('\n' :: ·) ∧ ∀ text ∈ lines, '\n' ∉ text := by
    cases before with
    | nil => exact ⟨[], rfl, by simp⟩
    | cons c rest =>
      cases (List.cons.inj parts).1
      obtain ⟨first, lines, rfl, clear⟩ := Text.exists_lines '\n' rest
      exact ⟨first :: lines, rfl, clear⟩
  refine ⟨lines, rfl, ?_⟩
  have cut : (Text.splitAtEach '\n' (frame.command.name.toList ++ ['\r'] ++
      ((frame.headerLines ++ [[]]).map (· ++ ['\r']) ++ lines).flatMap ('\n' :: ·))).map
        dropReturns =
      frame.command.name.toList :: (frame.headerLines ++ [] :: lines.map dropReturns) := by
    rw [Text.splitAtEach_lines, ← List.cons_append, List.map_append]
    · refine (congrArg (· ++ _) (dropReturns_returned escapes)).trans ?_
      simp
    · rw [← List.cons_append, List.forall_mem_append]
      exact ⟨clear_returned escapes, clear⟩
  have found : splitHead (frame.encodeCharsWith ['\r', '\n']) =
      some (frame.command.name.toList ++ ['\r'] ++
        ((frame.headerLines ++ [[]]).map (· ++ ['\r']) ++ lines).flatMap ('\n' :: ·), after) := by
    rw [splitHead, splitOnceAt_returns escapes, blank, List.flatMap_append]
    rfl
  have kept : (frame.headerLines ++ [] :: lines.map dropReturns).filter
      (fun text => !text.isEmpty) = frame.headerLines ++
        (lines.map dropReturns).filter fun text => !text.isEmpty := by
    rw [List.filter_append, List.filter_eq_self.mpr fun text hmem => by
      simpa using filled_headerLines escapes text hmem]
    rfl
  rw [encodeCharsWith_eq] at found ⊢
  rw [decodeChars_of_head found cut, kept, List.mapM_append, mapM_headerLines escapes]
  cases ((lines.map dropReturns).filter fun text => !text.isEmpty).mapM
    (decodeHeader frame.command.escapesHeaders) <;> rfl

theorem decodeChars_returns_ne (unstated : ∀ header ∈ frame.headers, header.1 ≠ contentLength)
    {before after : List Char}
    (blank : Text.splitOnceAt ['\n', '\n'] ('\n' :: (frame.body.toList ++ ['\x00'])) =
      some (before, after)) :
    decodeChars (frame.encodeCharsWith ['\r', '\n']) ≠ decodeChars frame.encodeChars := by
  intro same
  obtain ⟨lines, rfl, read⟩ := decodeChars_returns_of_blank escapes blank
  rw [read, decodeChars_escaped escapes] at same
  obtain ⟨headers, extra, same⟩ := map_ok.mp same
  simp only [Option.some.injEq, mk.injEq, true_and, List.append_right_eq_self] at same
  obtain ⟨rfl, bodies⟩ := same
  have hollow := List.forall₂_nil_right_iff.mp (mapM_ok.mp extra)
  rw [List.append_nil, String.ofList_inj] at bodies
  -- So what is passed over of the body ends lines and is nothing else.
  have ends : ∀ c ∈ lines.flatMap ('\n' :: ·) ++ ['\n', '\n'], c = '\n' ∨ c = '\r' := by
    have returns := filter_dropReturns_eq_nil.mp hollow
    rw [List.forall_mem_append]
    refine ⟨fun c hc => ?_, by simp⟩
    obtain ⟨text, hmem, hc⟩ := List.mem_flatMap.mp hc
    exact (List.mem_cons.mp hc).imp_right (returns text hmem c)
  obtain ⟨c, skipped, shape⟩ := List.exists_cons_of_ne_nil
    (List.append_ne_nil_of_right_ne_nil (lines.flatMap ('\n' :: ·)) (by simp : ['\n', '\n'] ≠ []))
  have parts := Text.eq_of_splitOnceAt blank
  rw [shape] at parts ends
  refine bodyOf_ne ?_ (List.cons.inj parts).2.symm ?_ ?_ bodies
  · rw [String.ofList_toList]
    exact fun n declared => eq_of_length_written unstated declared
  · rintro rfl
    simpa using congrArg List.length shape
  · intro nul
    exact absurd (ends _ (List.mem_cons_of_mem _ nul)) (by decide)

/-- Written with carriage returns, a frame that escapes its headers and declares no length of its
own is read as it is from plain newlines exactly if no blank line begins its body or stands in
it. -/
theorem decode_returns_iff (unstated : ∀ header ∈ frame.headers, header.1 ≠ contentLength) :
    decode (frame.encodeWith "\r\n") = decode frame.encode ↔
      ¬ ['\n', '\n'] <:+: '\n' :: frame.body.toList := by
  have plain : Text.splitOnceAt ['\n', '\n'] ('\n' :: (frame.body.toList ++ ['\x00'])) = none ↔
      ¬ ['\n', '\n'] <:+: '\n' :: frame.body.toList := by
    rw [Text.splitOnceAt_eq_none, ← List.cons_append, List.infix_concat_iff, not_or]
    refine and_iff_right ?_
    rintro ⟨front, same⟩
    simpa [List.getLast?_cons] using congrArg List.getLast? same
  have returned : decode (frame.encodeWith "\r\n") =
      decodeChars (frame.encodeCharsWith ['\r', '\n']) := by
    rw [decode, encodeWith, String.toList_ofList]
    rfl
  have written : decode frame.encode = decodeChars frame.encodeChars := by
    rw [decode, encode, String.toList_ofList]
  rw [returned, written, ← plain]
  refine ⟨fun same => ?_, decodeChars_returns escapes⟩
  cases blank : Text.splitOnceAt ['\n', '\n'] ('\n' :: (frame.body.toList ++ ['\x00'])) with
  | none => rfl
  | some found => exact absurd same (decodeChars_returns_ne escapes unstated blank)

end Escapes

def sentence : Frame := ⟨.send, [("a", "\r\n")], "one\n\\two\x00"⟩

/-- Up to its empty line the body is taken for a part of the head. -/
def paragraphs : Frame := ⟨.send, [], "one\n\ntwo"⟩

theorem decode_returns_paragraphs :
    decode (sentence.encodeWith "\r\n") = decode sentence.encode ∧
      decode (paragraphs.encodeWith "\r\n") ≠ decode paragraphs.encode :=
  ⟨(decode_returns_iff rfl (by decide)).mpr (Text.splitOnceAt_eq_none.mp rfl),
    fun same => (decode_returns_iff rfl (by decide)).mp same ⟨"\none".toList, "two".toList, rfl⟩⟩

end Frame

end Federation
