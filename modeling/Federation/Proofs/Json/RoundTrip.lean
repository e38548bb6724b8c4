import Federation.Json.Decoder
import Federation.Proofs.Json.Numerals
import Federation.Proofs.Json.Strings
import Federation.Text.Blank

/-!
# Documents that are read back

What is written for a document is read as that document, with nothing left
over, as long as it is not nested too deep and its numbers read back. Numbers
that are read as others only change themselves. What the strings in it hold
does not matter, nor do repeated names.
-/

namespace Federation

-- ---------------------------------------------------------------------------
-- Induction
-- ---------------------------------------------------------------------------

theorem sizeOf_member {members : List (String × α)} [SizeOf α] {m : String × α}
    (h : m ∈ members) : sizeOf m.2 < sizeOf members := by
  have hm := List.sizeOf_lt_of_mem h
  cases m
  simp at hm ⊢
  omega

/-- A property of documents that passes from the parts to the whole. -/
@[elab_as_elim]
theorem Document.byParts {P : Document → Prop} (null : P .null) (bool : ∀ b, P (.bool b))
    (number : ∀ n, P (.number n)) (string : ∀ s, P (.string s))
    (array : ∀ items : List Document, (∀ d ∈ items, P d) → P (.array items))
    (object : ∀ members : List (String × Document), (∀ m ∈ members, P m.2) → P (.object members))
    (unreadable : ∀ fault, P (.unreadable fault)) (d : Document) : P d :=
  match d with
  | .null => null
  | .bool b => bool b
  | .number n => number n
  | .string s => string s
  | .unreadable fault => unreadable fault
  | .array items => array items fun d hd =>
      have := List.sizeOf_lt_of_mem hd
      byParts null bool number string array object unreadable d
  | .object members => object members fun m hm =>
      have := sizeOf_member hm
      byParts null bool number string array object unreadable m.2
termination_by sizeOf d

namespace Document

open Json (renderString)
open Number (Ends ends_cons ends_nil)

-- ---------------------------------------------------------------------------
-- The numbers in a document
-- ---------------------------------------------------------------------------

mutual
/-- All its numbers are such, and no part is unreadable. -/
def Only (p : Number → Prop) : Document → Prop
  | .number n => p n
  | .array items => OnlyItems p items
  | .object members => OnlyMembers p members
  | .unreadable _ => False
  | _ => True
def OnlyItems (p : Number → Prop) : List Document → Prop
  | [] => True
  | d :: rest => d.Only p ∧ OnlyItems p rest
def OnlyMembers (p : Number → Prop) : List (String × Document) → Prop
  | [] => True
  | (_, d) :: rest => d.Only p ∧ OnlyMembers p rest
end

theorem onlyItems_iff {items : List Document} :
    OnlyItems p items ↔ ∀ d ∈ items, d.Only p := by
  induction items with
  | nil => simp [OnlyItems]
  | cons d rest ih => simp [OnlyItems, ih]

theorem onlyMembers_iff {members : List (String × Document)} :
    OnlyMembers p members ↔ ∀ m ∈ members, m.2.Only p := by
  induction members with
  | nil => simp [OnlyMembers]
  | cons m rest ih => simp [OnlyMembers, ih]

theorem only_array {items : List Document} :
    (array items).Only p ↔ ∀ d ∈ items, d.Only p := by
  rw [Only, onlyItems_iff]

theorem only_object {members : List (String × Document)} :
    (object members).Only p ↔ ∀ m ∈ members, m.2.Only p := by
  rw [Only, onlyMembers_iff]

theorem Only.mono {p q : Number → Prop} (hpq : ∀ n, p n → q n) {d : Document} :
    d.Only p → d.Only q := by
  induction d using Document.byParts with
  | number n => exact hpq n
  | array items ih =>
    rw [only_array, only_array]
    exact fun h d hd => ih d hd (h d hd)
  | object members ih =>
    rw [only_object, only_object]
    exact fun h m hm => ih m hm (h m hm)
  | unreadable fault => exact False.elim
  | _ => exact fun _ => trivial

mutual
def reread : Document → Document
  | .number n => .number n.reread
  | .array items => .array (rereadItems items)
  | .object members => .object (rereadMembers members)
  | d => d
def rereadItems : List Document → List Document
  | [] => []
  | d :: rest => d.reread :: rereadItems rest
def rereadMembers : List (String × Document) → List (String × Document)
  | [] => []
  | (n, d) :: rest => (n, d.reread) :: rereadMembers rest
end

@[simp] theorem rereadItems_eq (items : List Document) :
    rereadItems items = items.map reread := by
  induction items with
  | nil => rfl
  | cons d rest ih => simp [rereadItems, ih]

@[simp] theorem rereadMembers_eq (members : List (String × Document)) :
    rereadMembers members = members.map fun m => (m.1, m.2.reread) := by
  induction members with
  | nil => rfl
  | cons m rest ih => simp [rereadMembers, ih]

theorem reread_eq {d : Document} : d.Only Number.ReadsBack → d.reread = d := by
  induction d using Document.byParts with
  | number n => exact fun h => congrArg _ (Number.ReadsBack.reread_eq h)
  | array items ih =>
    rw [only_array, reread, rereadItems_eq]
    intro h
    rw [List.map_congr_left (g := id) fun d hd => ih d hd (h d hd), List.map_id]
  | object members ih =>
    rw [only_object, reread, rereadMembers_eq]
    intro h
    have same : ∀ m ∈ members, (m.1, m.2.reread) = id m := fun m hm =>
      Prod.ext rfl (ih m hm (h m hm))
    rw [List.map_congr_left same, List.map_id]
  | unreadable fault => exact False.elim
  | _ => exact fun _ => rfl

-- ---------------------------------------------------------------------------
-- How a document begins
-- ---------------------------------------------------------------------------

def Begins (c : Char) : Prop := Text.isBlank c = false ∧ c ≠ ']' ∧ c ≠ '\x7d'

instance (c : Char) : Decidable (Begins c) :=
  inferInstanceAs (Decidable (Text.isBlank c = false ∧ c ≠ ']' ∧ c ≠ '\x7d'))

theorem isBlank_of_isGap {c : Char} (h : isGap c = true) : Text.isBlank c = true := by
  simp only [isGap, Bool.or_eq_true, beq_iff_eq] at h
  rcases h with ((rfl | rfl) | rfl) | rfl <;> decide

theorem Begins.isGap {c : Char} (h : Begins c) : isGap c = false := by
  refine Bool.eq_false_iff.mpr fun hc => ?_
  simpa [isBlank_of_isGap hc] using h.1

theorem begins_of_numeral {c : Char} (h : c = '-' ∨ c.isDigit = true) : Begins c := by
  have range : 0x2D ≤ c.toNat ∧ c.toNat ≤ 0x39 := by
    rcases h with rfl | h
    · decide
    · simp only [Char.isDigit, Bool.and_eq_true, decide_eq_true_eq, ge_iff_le] at h
      have low : 48 ≤ c.toNat := h.1
      have high : c.toNat ≤ 57 := h.2
      omega
  refine ⟨?_, ?_, ?_⟩
  · simp only [Text.isBlank, Bool.or_eq_false_iff, Bool.and_eq_false_iff,
      decide_eq_false_iff_not, beq_eq_false_iff_ne]
    omega
  all_goals
    rintro rfl
    revert range
    decide

theorem render_head {d : Document} (h : d.Only Number.Legible) :
    ∃ c rest, d.render = c :: rest ∧ Begins c := by
  cases d with
  | number n =>
    obtain ⟨c, rest, heq, hc⟩ := Number.Legible.head h
    exact ⟨c, rest, by simp [render, heq], begins_of_numeral hc⟩
  | bool b => cases b <;> exact ⟨_, _, rfl, by decide⟩
  | array items => cases items <;> exact ⟨_, _, rfl, by decide⟩
  | object members => cases members <;> exact ⟨_, _, rfl, by decide⟩
  | unreadable fault => exact h.elim
  | _ => exact ⟨_, _, rfl, by decide⟩

theorem skipGap_cons {c : Char} (h : isGap c = false) (rest : List Char) :
    skipGap (c :: rest) = c :: rest := by
  simp [skipGap, h]

-- ---------------------------------------------------------------------------
-- One value
-- ---------------------------------------------------------------------------

theorem nested_of_lt {depth : Nat} (h : depth < maxDepth) (d : Document) : nested depth d = d := by
  simp [nested, h]

theorem readValue_string (s : String) (fuel depth : Nat) (rest : List Char) :
    readValue (fuel + 1) depth (renderString s ++ rest) = (.string s, .ok rest) := by
  rw [renderString_append, readValue, skipGap_cons (by decide)]
  simp [readString_render]

theorem readValue_number (h : Number.Legible n) (hr : Ends rest) (fuel depth : Nat) :
    readValue (fuel + 1) depth (n.render ++ rest) = (.number n.reread, .ok rest) := by
  obtain ⟨c, tail, heq, hc⟩ := Number.Legible.head h
  obtain ⟨numeral, hn, hv⟩ := h rest hr
  have begins := begins_of_numeral hc
  rw [heq, List.cons_append] at hn ⊢
  have others : c ≠ 'n' ∧ c ≠ 't' ∧ c ≠ 'f' ∧ c ≠ '"' ∧ c ≠ '[' ∧ c ≠ '\x7b' := by
    refine ⟨?_, ?_, ?_, ?_, ?_, ?_⟩ <;> rintro rfl <;> revert hc <;> decide
  rw [readValue, skipGap_cons begins.isGap]
  simp [others, hc, hn, hv]

-- ---------------------------------------------------------------------------
-- Lists and objects
-- ---------------------------------------------------------------------------

def renderList : List Document → List Char
  | [] => []
  | d :: rest => d.render ++ renderItems rest

def renderFields : List (String × Document) → List Char
  | [] => []
  | (n, d) :: rest => renderString n ++ ':' :: d.render ++ renderMembers rest

theorem ends_renderItems (items : List Document) (rest : List Char) :
    Ends (renderItems items ++ rest) := by
  cases items <;> exact ends_cons (by decide)

theorem ends_renderMembers (members : List (String × Document)) (rest : List Char) :
    Ends (renderMembers members ++ rest) := by
  cases members <;> exact ends_cons (by decide)

section

variable {depth : Nat} {text : List Char}

theorem readValue_array (hc : Begins c)
    (h : readItems fuel (depth + 1) (c :: tail) = (items, rest)) :
    readValue (fuel + 1) depth ('[' :: c :: tail) = (nested depth (.array items), rest) := by
  have gap := skipGap_cons hc.isGap tail
  rw [readValue, skipGap_cons (by decide)]
  simp only
  split
  · rename_i heq
    simp [gap] at heq
  · rename_i heq
    rw [gap] at heq
    exact absurd (List.cons.inj heq).1 hc.2.1
  · simp [gap, h]

theorem readValue_brace (fuel depth : Nat) (tail : List Char) :
    readValue (fuel + 1) depth ('\x7b' :: '"' :: tail) =
      match readMembers fuel (depth + 1) ('"' :: tail) with
      | (.ok members, rest) => (nested depth (.object members), rest)
      | (.error fault, rest) => (.unreadable fault, rest) := by
  rw [readValue, skipGap_cons (by decide)]
  rcases h : readMembers fuel (depth + 1) ('"' :: tail) with ⟨_ | _, _⟩
  all_goals simp [skipGap_cons (show isGap '"' = false by decide), h]

theorem readValue_object (h : readMembers fuel (depth + 1) ('"' :: tail) = (.ok members, rest)) :
    readValue (fuel + 1) depth ('\x7b' :: '"' :: tail) = (nested depth (.object members), rest) := by
  rw [readValue_brace, h]

theorem readItems_last (hc : Begins c)
    (h : readValue fuel depth (c :: tail) = (d, .ok (']' :: rest))) :
    readItems (fuel + 1) depth (c :: tail) = ([d], .ok rest) := by
  have gap := skipGap_cons hc.isGap tail
  rw [readItems]
  split
  · rename_i heq
    rw [gap] at heq
    exact absurd (List.cons.inj heq).1 hc.2.1
  · simp [gap, h, skipGap_cons (show isGap ']' = false by decide)]

theorem readItems_next (hc : Begins c)
    (h : readValue fuel depth (c :: tail) = (d, .ok (',' :: more)))
    (hm : readItems fuel depth more = (items, rest)) :
    readItems (fuel + 1) depth (c :: tail) = (d :: items, rest) := by
  have gap := skipGap_cons hc.isGap tail
  rw [readItems]
  split
  · rename_i heq
    rw [gap] at heq
    exact absurd (List.cons.inj heq).1 hc.2.1
  · simp [gap, h, hm, skipGap_cons (show isGap ',' = false by decide)]

theorem readMember_last (h : readValue fuel depth text = (d, .ok ('\x7d' :: rest))) :
    readMember (fuel + 1) depth (':' :: text) = (d, .ok [], .ok rest) := by
  rw [readMember, skipGap_cons (by decide)]
  simp [h, skipGap_cons (show isGap '\x7d' = false by decide)]

theorem readMember_next (h : readValue fuel depth text = (d, .ok (',' :: more))) :
    readMember (fuel + 1) depth (':' :: text) = (d, readMembers fuel depth more) := by
  rw [readMember, skipGap_cons (by decide)]
  simp [h, skipGap_cons (show isGap ',' = false by decide)]

theorem readMembers_cons (h : readMember fuel depth text = (d, .ok members, rest)) :
    readMembers (fuel + 1) depth (renderString n ++ text) = (.ok ((n, d) :: members), rest) := by
  rw [renderString_append, readMembers, skipGap_cons (by decide)]
  simp [readString_render, h, Except.map]

end

mutual
/-- The induction over documents. Fuel of twice the length of what is written is enough, because
every step but the one from a list to its first item takes a character. -/
theorem readValue_render : ∀ (d : Document) (fuel depth : Nat) (rest : List Char),
    d.Only Number.Legible → depth + d.depth ≤ maxDepth → 2 * d.render.length ≤ fuel →
    Ends rest → readValue fuel depth (d.render ++ rest) = (d.reread, .ok rest) := by
  intro d fuel depth rest h hd hf hr
  obtain ⟨c, tail, heq, -⟩ := render_head h
  obtain ⟨fuel, rfl⟩ : ∃ f, fuel = f + 1 := ⟨fuel - 1, by simp [heq] at hf; omega⟩
  match d with
  | .null => simp [render, readValue, skipGap_cons, isGap, readWord, reread]
  | .bool true => simp [render, readValue, skipGap_cons, isGap, readWord, reread]
  | .bool false => simp [render, readValue, skipGap_cons, isGap, readWord, reread]
  | .number n => exact readValue_number h hr fuel depth
  | .string s => exact readValue_string s fuel depth rest
  | .unreadable _ => exact h.elim
  | .array [] =>
    have hlt : depth < maxDepth := by simp [Document.depth, depthItems] at hd; omega
    have hn := nested_of_lt hlt
    simp [render, readValue, skipGap_cons, isGap, hn, reread]
  | .array (d :: ds) =>
    have items := readItems_render (d :: ds) fuel (depth + 1) rest (by simp) h
      (by simp [Document.depth] at hd; omega) (by simp [render, renderList] at hf ⊢; omega)
    obtain ⟨c, tail, heq, hc⟩ := render_head (d := d) h.1
    simp only [render, renderList, heq, List.cons_append] at items ⊢
    rw [readValue_array hc items, nested_of_lt (by simp [Document.depth] at hd; omega), reread]
  | .object [] =>
    have hlt : depth < maxDepth := by simp [Document.depth, depthMembers] at hd; omega
    have hn := nested_of_lt hlt
    simp [render, readValue, skipGap_cons, isGap, hn, reread]
  | .object ((n, d) :: ms) =>
    have members := readMembers_render ((n, d) :: ms) fuel (depth + 1) rest (by simp) h
      (by simp [Document.depth] at hd; omega) (by simp [render, renderFields] at hf ⊢; omega)
    simp only [render, renderFields, renderString, List.cons_append] at members ⊢
    rw [readValue_object members, nested_of_lt (by simp [Document.depth] at hd; omega), reread]
theorem readItems_render : ∀ (items : List Document) (fuel depth : Nat) (rest : List Char),
    items ≠ [] → OnlyItems Number.Legible items → depth + depthItems items ≤ maxDepth →
    2 * (renderList items).length ≤ fuel →
    readItems fuel depth (renderList items ++ rest) = (rereadItems items, .ok rest) := by
  intro items fuel depth rest hne h hd hf
  match items with
  | [] => exact absurd rfl hne
  | d :: ds =>
    obtain ⟨c, tail, heq, hc⟩ := render_head (d := d) h.1
    obtain ⟨fuel, rfl⟩ : ∃ f, fuel = f + 1 :=
      ⟨fuel - 1, by simp [renderList, heq] at hf; omega⟩
    have value := readValue_render d fuel depth (renderItems ds ++ rest) h.1
      (by simp [depthItems] at hd; omega)
      (by cases ds <;> simp [renderList, renderItems] at hf ⊢ <;> omega)
      (ends_renderItems ds rest)
    rw [renderList, List.append_assoc]
    rw [heq, List.cons_append] at value ⊢
    match ds with
    | [] => exact readItems_last hc value
    | e :: ds =>
      refine readItems_next hc value ?_
      have others := readItems_render (e :: ds) fuel depth rest (by simp) h.2
        (by simp [depthItems] at hd ⊢; omega)
        (by simp [renderList, renderItems] at hf ⊢; omega)
      simpa [renderList] using others
theorem readMembers_render : ∀ (members : List (String × Document)) (fuel depth : Nat)
    (rest : List Char), members ≠ [] → OnlyMembers Number.Legible members →
    depth + depthMembers members ≤ maxDepth → 2 * (renderFields members).length ≤ fuel →
    readMembers fuel depth (renderFields members ++ rest) =
      (.ok (rereadMembers members), .ok rest) := by
  intro members fuel depth rest hne h hd hf
  match members with
  | [] => exact absurd rfl hne
  | (n, d) :: ms =>
    obtain ⟨fuel, rfl⟩ : ∃ f, fuel = f + 2 :=
      ⟨fuel - 2, by simp [renderFields] at hf; omega⟩
    have value := readValue_render d fuel depth (renderMembers ms ++ rest) h.1
      (by simp [depthMembers] at hd; omega)
      (by simp [renderFields] at hf ⊢; omega)
      (ends_renderMembers ms rest)
    simp only [renderFields, List.append_assoc, List.cons_append]
    refine readMembers_cons ?_
    match ms with
    | [] => exact readMember_last value
    | m :: ms =>
      have others := readMembers_render (m :: ms) fuel depth rest (by simp) h.2
        (by simp [depthMembers] at hd ⊢; omega)
        (by simp [renderFields, renderMembers] at hf ⊢; omega)
      rw [readMember_next value]
      simpa [renderFields] using others
end

-- ---------------------------------------------------------------------------
-- Whole texts
-- ---------------------------------------------------------------------------

theorem read_render_legible {d : Document} (h : d.Only Number.Legible) (hd : d.depth ≤ maxDepth) :
    Document.read d.render = (d.reread, none) := by
  have value := readValue_render d (2 * d.render.length + 2) 0 [] h (by omega) (by omega) ends_nil
  rw [List.append_nil] at value
  simp [Document.read, value, skipGap]

theorem read_render {d : Document} (h : d.Only Number.ReadsBack) (hd : d.depth ≤ maxDepth) :
    Document.read d.render = (d, none) := by
  rw [read_render_legible (h.mono fun _ => Number.ReadsBack.legible) hd, reread_eq h]

end Document

theorem Decoder.ofText_text (decoder : Decoder α) {d : Document} (h : d.Only Number.ReadsBack)
    (hd : d.depth ≤ Document.maxDepth) : decoder.ofText d.text = decoder .text d := by
  simp [Decoder.ofText, Document.text, Document.read_render h hd]

end Federation
