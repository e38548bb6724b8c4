import Federation.Message
import Federation.Proofs.Json.Reals
import Federation.Proofs.Json.Records

/-!
# Outcomes that are read back

The class of a reply and its body say what the outcome was. An empty response has an empty body, any
other one never has a blank one.
-/

namespace Federation

-- ---------------------------------------------------------------------------
-- Documents as bodies
-- ---------------------------------------------------------------------------

theorem Json.not_mem_renderString (s : String) : '\x00' ∉ renderString s := by
  have escaped (c : Char) : '\x00' ∉ escapeChar c := by
    rw [escapeChar.eq_def]
    split
    case h_8 =>
      split
      case isTrue small =>
        have digit : ∀ n < 16, Nat.digitChar n ≠ '\x00' := by decide
        have high := digit (c.toNat / 16) (by omega)
        have low := digit (c.toNat % 16) (by omega)
        simp [Ne.symm high, Ne.symm low]
      case isFalse large =>
        rintro hmem
        obtain rfl := List.mem_singleton.mp hmem
        exact large (by decide)
    all_goals decide
  simp [renderString, escaped]

namespace Number

theorem not_mem_toDigits (n : Nat) : '\x00' ∉ Nat.toDigits 10 n := by
  intro hmem
  have digit := isDigit_toDigits n _ hmem
  revert digit
  decide

theorem not_mem_realText (d : Double) : '\x00' ∉ realText d := by
  have digits := not_mem_toDigits d.shortest.digits
  have taken (k : Nat) : '\x00' ∉ (Nat.toDigits 10 d.shortest.digits).take k :=
    fun h => digits (List.mem_of_mem_take h)
  have left (k : Nat) : '\x00' ∉ (Nat.toDigits 10 d.shortest.digits).drop k :=
    fun h => digits (List.mem_of_mem_drop h)
  have sign : '\x00' ∉ (if d.isNegative then ['-'] else []) := by split <;> decide
  have mark (power : Int) : '\x00' ≠ (if power < 0 then '-' else '+') := by split <;> decide
  unfold realText
  dsimp only
  repeat' split
  all_goals simp_all [not_mem_toDigits]

theorem not_mem_render (n : Number) : '\x00' ∉ n.render := by
  cases n with
  | int value =>
    rw [render]
    split <;> simp [not_mem_toDigits]
  | real d => exact not_mem_realText d

end Number

namespace Document

theorem not_mem_renderItems {items : List Document} (h : ∀ d ∈ items, '\x00' ∉ d.render) :
    '\x00' ∉ renderItems items := by
  induction items with
  | nil => decide
  | cons d rest ih =>
    have first := h d List.mem_cons_self
    have later := ih fun e he => h e (List.mem_cons_of_mem _ he)
    simp [renderItems, first, later]

theorem not_mem_renderMembers {members : List (String × Document)}
    (h : ∀ m ∈ members, '\x00' ∉ m.2.render) : '\x00' ∉ renderMembers members := by
  induction members with
  | nil => decide
  | cons m rest ih =>
    have first := h m List.mem_cons_self
    have later := ih fun e he => h e (List.mem_cons_of_mem _ he)
    simp [renderMembers, Json.not_mem_renderString, first, later]

theorem not_mem_render (d : Document) : '\x00' ∉ d.render := by
  induction d using Document.byParts with
  | number n => exact n.not_mem_render
  | string s => exact Json.not_mem_renderString s
  | array items ih =>
    cases items with
    | nil => decide
    | cons d rest =>
      have first := ih d List.mem_cons_self
      have later := not_mem_renderItems fun e he => ih e (List.mem_cons_of_mem _ he)
      simp [render, first, later]
  | object members ih =>
    cases members with
    | nil => decide
    | cons m rest =>
      have first := ih m List.mem_cons_self
      have later := not_mem_renderMembers fun e he => ih e (List.mem_cons_of_mem _ he)
      simp [render, Json.not_mem_renderString, first, later]
  | bool b => cases b <;> decide
  | unreadable fault => exact (by decide : '\x00' ∉ ['n', 'u', 'l', 'l'])
  | null => decide

theorem not_mem_text (d : Document) : '\x00' ∉ d.text.toList := by
  rw [text, String.toList_ofList]
  exact d.not_mem_render

theorem isBlankText_text {d : Document} (h : d.Only Number.ReadsBack) :
    Text.isBlankText d.text = false := by
  obtain ⟨c, rest, heq, begins⟩ := render_head (h.mono fun _ => Number.ReadsBack.legible)
  rw [Text.isBlankText, text, String.toList_ofList, heq, List.all_cons, begins.1, Bool.false_and]

theorem text_ne {d : Document} (h : d.Only Number.ReadsBack) : d.text ≠ "" := by
  intro empty
  have blank := isBlankText_text h
  rw [empty] at blank
  cases blank

end Document

-- ---------------------------------------------------------------------------
-- Outcomes
-- ---------------------------------------------------------------------------

theorem ErrorMessage.plain_toDocument (error : ErrorMessage) :
    error.toDocument.Only p ∧ error.toDocument.depth ≤ 1 := by
  constructor
  · simp [toDocument, Document.only_object]
  · simp [toDocument, Document.depth_object_le]

namespace Outcome

def IsPlain : Outcome → Prop
  | .success response => response.modelClass ≠ ModelClass.error ∧ response.payload.Sorted ∧
      response.payload.toDocument.Only Number.IsInteger ∧
      response.payload.toDocument.depth ≤ Document.maxDepth
  | .failure _ => True

def IsPortable : Outcome → Prop
  | .success response => response.modelClass ≠ ModelClass.error ∧ response.payload.Sorted ∧
      response.payload.toDocument.Only Number.ReadsBack ∧
      response.payload.toDocument.depth ≤ Document.maxDepth
  | .failure _ => True

theorem IsPlain.isPortable {outcome : Outcome} (h : outcome.IsPlain) : outcome.IsPortable := by
  cases outcome with
  | failure error => exact trivial
  | success response =>
    obtain ⟨named, sorted, numbers, depth⟩ := h
    exact ⟨named, sorted, numbers.mono fun _ => Number.IsInteger.readsBack, depth⟩

theorem decode_failure (error : ErrorMessage) :
    decode ModelClass.error (encode (.failure error)) = .ok (.failure error) := by
  obtain ⟨only, depth⟩ := error.plain_toDocument (p := Number.ReadsBack)
  have read : ErrorMessage.decoder.ofText (encode (failure error)) = .ok error :=
    error.reads.ofText only (Nat.le_trans depth (by decide))
  simp [decode, Coded.ofText, Coded.decoder, read, Except.map]

theorem decode_success {response : Response} (h : IsPortable (.success response)) :
    decode response.modelClass (encode (.success response)) = .ok (.success response) := by
  obtain ⟨name, payload⟩ := response
  obtain ⟨named, sorted, back, depth⟩ := h
  rw [decode, if_neg named, encode]
  by_cases empty : payload.isNull = true
  · obtain rfl : payload = .null := by
      cases payload <;> first | rfl | cases empty
    rfl
  · have blank : Text.isBlankText payload.text = false := Document.isBlankText_text back
    have read : Decoder.json.ofText payload.text = .ok payload :=
      (Decoder.reads_json sorted (back.mono fun _ => Number.ReadsBack.isFinite)).ofText back depth
    simp [Response.isEmpty, empty, blank, read, Except.map]

theorem encode_failure_ne (error : ErrorMessage) : encode (.failure error) ≠ "" :=
  Document.text_ne error.plain_toDocument.1

theorem encode_success_ne {response : Response} (h : IsPlain (.success response))
    (filled : response.payload ≠ .null) : encode (.success response) ≠ "" := by
  obtain ⟨name, payload⟩ := response
  obtain ⟨-, -, numbers, -⟩ := h
  have present : payload.isNull = false := by
    cases payload with
    | null => exact absurd rfl filled
    | _ => rfl
  rw [encode, Response.isEmpty, present]
  exact Document.text_ne (numbers.mono fun _ => Number.IsInteger.readsBack)

theorem not_mem_encode (outcome : Outcome) : '\x00' ∉ outcome.encode.toList := by
  cases outcome with
  | failure error => exact Document.not_mem_text _
  | success response =>
    rw [encode]
    split
    · decide
    · exact Document.not_mem_text _

/-- What a reply says is what the outcome was; nothing at all is said by an empty success alone. -/
theorem decode_modelClass_encode {outcome : Outcome} (h : outcome.IsPlain) :
    decode outcome.modelClass outcome.encode = .ok outcome ∧
      (outcome.encode = "" ↔ ∃ modelClass, outcome = .success ⟨modelClass, .null⟩) := by
  cases outcome with
  | failure error =>
    refine ⟨decode_failure error, fun empty => absurd empty (encode_failure_ne error), ?_⟩
    rintro ⟨_, same⟩
    cases same
  | success response =>
    refine ⟨decode_success h.isPortable, fun empty => ?_, ?_⟩
    · obtain ⟨modelClass, payload⟩ := response
      by_cases filled : payload = .null
      · exact ⟨modelClass, by rw [filled]⟩
      · exact absurd empty (encode_success_ne h filled)
    · rintro ⟨modelClass, same⟩
      cases same
      rfl

def extremes : Outcome :=
  .success ⟨"Listing", .array [.null, .string " \t", .object [
    ("", .number (.int (-9223372036854775808))),
    ("\"\\\x00é😀", .number (.int 18446744073709551615))]]⟩

theorem isPlain_extremes : extremes.IsPlain := by
  refine ⟨by decide, ?_, ?_, by decide⟩
  · have names : (["", "\"\\\x00é😀"] : List String).Pairwise (· < ·) := by decide
    refine Json.sorted_array.mpr ?_
    intro item h
    simp only [List.mem_cons, List.not_mem_nil, or_false] at h
    rcases h with rfl | rfl | rfl
    · exact trivial
    · exact trivial
    · exact ⟨names, trivial, trivial, trivial⟩
  · simp [Json.toDocument, Json.toDocumentItems, Json.toDocumentMembers, Document.Only,
      Document.OnlyItems, Document.OnlyMembers, Number.IsInteger]

theorem decode_modelClass_encode_extremes :
    decode "Listing" extremes.encode = .ok extremes ∧
      (extremes.encode = "" ↔ ∃ modelClass, extremes = .success ⟨modelClass, .null⟩) :=
  decode_modelClass_encode isPlain_extremes

end Outcome

end Federation
