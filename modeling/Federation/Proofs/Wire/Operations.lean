import Federation.Proofs.Json.Reading

/-!
# Operations on the wire

An operation that arrives is the one that was sent. Even one that carries numbers which are not kept
as they are arrives, if it can be read at all, at the garden that it is for.
-/

namespace Federation

-- ---------------------------------------------------------------------------
-- Slots that are filled stay filled
-- ---------------------------------------------------------------------------

namespace Form

def Keeps (form : Form α) (p : form.Slots → Prop) : Prop :=
  ∀ source name d slots after, form.fill source name d slots = .ok (some after) → p slots → p after

theorem keeps_field {name : String} {decoder : Decoder α} {default : Option α} (v : α) :
    (field name decoder default).Keeps (· = some v) := by
  intro source n d slot after h
  rintro rfl
  by_cases same : n = name
  · simp [field, same] at h
  · simp [field, same] at h

theorem fill_both {f : Form (α → β)} {g : Form α} {slots after : f.Slots × g.Slots}
    (h : (f.both g).fill source n d slots = .ok (some after)) :
    (∃ first, f.fill source n d slots.1 = .ok (some first) ∧ after = (first, slots.2)) ∨
      ∃ second, g.fill source n d slots.2 = .ok (some second) ∧ after = (slots.1, second) := by
  simp only [both, bind, Except.bind] at h
  cases hf : f.fill source n d slots.1 with
  | error e => simp [hf] at h
  | ok filled =>
    cases filled with
    | some first =>
      simp only [hf, Except.ok.injEq, Option.some.injEq] at h
      exact .inl ⟨first, rfl, h.symm⟩
    | none =>
      cases hg : g.fill source n d slots.2 with
      | error e => simp [hf, hg] at h
      | ok filled =>
        cases filled with
        | some second =>
          simp only [hf, hg, Except.ok.injEq, Option.some.injEq] at h
          exact .inr ⟨second, rfl, h.symm⟩
        | none => simp [hf, hg] at h

theorem Keeps.left {f : Form (α → β)} {p : f.Slots → Prop} (h : f.Keeps p) (g : Form α) :
    (f.both g).Keeps fun slots => p slots.1 := by
  intro source n d slots after hfill hp
  rcases fill_both hfill with ⟨first, hf, rfl⟩ | ⟨second, -, rfl⟩
  · exact h source n d slots.1 first hf hp
  · exact hp

theorem Keeps.right (f : Form (α → β)) {g : Form α} {p : g.Slots → Prop} (h : g.Keeps p) :
    (f.both g).Keeps fun slots => p slots.2 := by
  intro source n d slots after hfill hp
  rcases fill_both hfill with ⟨first, -, rfl⟩ | ⟨second, hg, rfl⟩
  · exact hp
  · exact h source n d slots.2 second hg hp

theorem Keeps.fillAll {form : Form α} {p : form.Slots → Prop} (h : form.Keeps p) {source : Source}
    {members : List (String × Document)} {slots after : form.Slots}
    (hfill : form.fillAll source members slots = .ok after) (hp : p slots) : p after := by
  induction members generalizing slots with
  | nil =>
    simp only [Form.fillAll, Except.ok.injEq] at hfill
    exact hfill ▸ hp
  | cons m rest ih =>
    obtain ⟨name, d⟩ := m
    simp only [Form.fillAll, bind, Except.bind] at hfill
    cases hf : form.fill source name d slots with
    | error e => simp [hf] at hfill
    | ok filled =>
      cases filled with
      | some next =>
        simp only [hf] at hfill
        exact ih hfill (h source name d slots next hf hp)
      | none =>
        cases hb : d.break? with
        | some fault => simp [hf, hb] at hfill
        | none =>
          simp only [hf, hb] at hfill
          exact ih hfill hp

end Form

-- ---------------------------------------------------------------------------
-- The target of an operation that arrives
-- ---------------------------------------------------------------------------

theorem Decoder.document_of_ofText {decoder : Decoder α} (h : decoder.ofText text = .ok x) :
    decoder .text (Document.read text.toList).1 = .ok x := by
  unfold Decoder.ofText at h
  rcases hread : Document.read text.toList with ⟨document, _ | fault⟩
  · rwa [hread] at h
  · rw [hread] at h
    cases hd : decoder .text document with
    | error e => simp [hd, bind, Except.bind] at h
    | ok y => simp [hd, bind, Except.bind] at h

namespace Document

theorem read_fst (text : List Char) :
    (read text).1 = (readValue (2 * text.length + 2) 0 text).1 := by
  rw [read]
  rcases readValue (2 * text.length + 2) 0 text with ⟨_, _ | _⟩ <;> rfl

theorem readMembers_string (n s : String) (fuel depth : Nat) (rest : List Char) :
    readMembers (fuel + 3) depth
        (Json.renderString n ++ ':' :: (Json.renderString s ++ ',' :: rest)) =
      ((readMembers (fuel + 1) depth rest).1.map ((n, .string s) :: ·),
        (readMembers (fuel + 1) depth rest).2) := by
  rw [renderString_append, readMembers, skipGap_cons (by decide)]
  simp only [readString_render]
  rw [readMember, skipGap_cons (by decide)]
  simp only [readValue_string]
  rw [skipGap_cons (by decide)]
  rfl

end Document

namespace Operation

def form : Form Operation :=
  Form.pure Operation.mk
    |>.both (.required "operation_type" .string)
    |>.both (.optional "target_garden_name" (.nullable .string) none)
    |>.both (.optional "args" (.list .json) [])
    |>.both (.optional "kwargs" (.dictionary .json) [])

/-- Members after the first two cannot change what these have said. -/
theorem decoder_head {more : List (String × Document)} {type target : String}
    (h : decoder .text (.object (("operation_type", .string type) ::
      ("target_garden_name", .string target) :: more)) = .ok operation) :
    operation.operationType = type ∧ operation.targetGardenName = some target := by
  have kept : form.Keeps fun slots =>
      slots.1.1.1.2 = some type ∧ slots.1.1.2 = some (some target) := by
    intro source n d slots after hfill hp
    exact ⟨(((Form.keeps_field type).right _).left _ |>.left _ |>.left _) source n d slots after
        hfill hp.1,
      (((Form.keeps_field (some target)).right _).left _ |>.left _) source n d slots after hfill hp.2⟩
  let filled : form.Slots := (((((), some type), some (some target)), none), none)
  change (form.fillAll .text more filled >>= form.finish) = .ok operation at h
  cases hfill : form.fillAll .text more filled with
  | error e =>
    rw [hfill] at h
    cases h
  | ok slots =>
    have named := kept.fillAll hfill ⟨rfl, rfl⟩
    obtain ⟨⟨⟨⟨⟨⟩, first⟩, second⟩, args⟩, kwargs⟩ := slots
    obtain ⟨rfl, rfl⟩ : first = some type ∧ second = some (some target) := named
    rw [hfill] at h
    cases args <;> cases kwargs <;> cases h <;> exact ⟨rfl, rfl⟩

theorem toList_encode {operation : Operation} (h : operation.targetGardenName = some target) :
    ∃ rest, operation.encode.toList =
      '\x7b' :: (Json.renderString "operation_type" ++
        ':' :: (Json.renderString operation.operationType ++
          ',' :: (Json.renderString "target_garden_name" ++
            ':' :: (Json.renderString target ++ ',' :: rest)))) := by
  obtain ⟨args, kwargs, document⟩ : ∃ args kwargs, operation.toDocument = .object [
      ("operation_type", .string operation.operationType), ("target_garden_name", .string target),
      ("args", args), ("kwargs", kwargs)] :=
    ⟨_, _, by rw [toDocument, h]; rfl⟩
  obtain ⟨rest, hrest⟩ : ∃ rest,
      Document.renderMembers [("args", args), ("kwargs", kwargs)] = ',' :: rest := ⟨_, rfl⟩
  refine ⟨rest, ?_⟩
  change (String.ofList operation.toDocument.render).toList = _
  rw [String.toList_ofList, document, Document.render, Document.renderMembers, hrest]
  simp [Document.render]

theorem decode_encode_target {operation read : Operation}
    (h : decode operation.encode = .ok read) (ht : operation.targetGardenName = some target) :
    read.operationType = operation.operationType ∧ read.targetGardenName = some target := by
  obtain ⟨rest, text⟩ := toList_encode ht
  obtain ⟨fuel, hfuel⟩ : ∃ fuel, 2 * operation.encode.toList.length + 2 = fuel + 8 :=
    ⟨2 * operation.encode.toList.length + 2 - 8, by rw [text]; simp; omega⟩
  -- Whatever the text goes on with, its first two members are these.
  have members : Document.readMembers (fuel + 7) 1 (operation.encode.toList.drop 1) =
      ((Document.readMembers (fuel + 3) 1 rest).1.map fun more =>
          ("operation_type", .string operation.operationType) ::
            ("target_garden_name", .string target) :: more,
        (Document.readMembers (fuel + 3) 1 rest).2) := by
    rw [text, List.drop_succ_cons, List.drop_zero, Document.readMembers_string _ _ (fuel + 4),
      Document.readMembers_string _ _ (fuel + 2)]
    cases (Document.readMembers (fuel + 3) 1 rest).1 <;> rfl
  obtain ⟨tail, htail⟩ : ∃ tail, operation.encode.toList.drop 1 = '"' :: tail := by
    rw [text, List.drop_succ_cons, List.drop_zero, Document.renderString_append]
    exact ⟨_, rfl⟩
  have value : (Document.read operation.encode.toList).1 =
      match (Document.readMembers (fuel + 3) 1 rest).1 with
      | .ok more => .object (("operation_type", .string operation.operationType) ::
          ("target_garden_name", .string target) :: more)
      | .error fault => .unreadable fault := by
    have whole : operation.encode.toList = '\x7b' :: '"' :: tail := by rw [← htail, text]; rfl
    rw [htail] at members
    rw [Document.read_fst, hfuel, whole, Document.readValue_brace, members]
    cases (Document.readMembers (fuel + 3) 1 rest).1 <;> rfl
  have decoded := Decoder.document_of_ofText (exists_ofText h).1
  rw [value] at decoded
  cases hmore : (Document.readMembers (fuel + 3) 1 rest).1 with
  | ok more => exact decoder_head (by simpa only [hmore] using decoded)
  | error fault =>
    rw [hmore] at decoded
    cases decoded

-- ---------------------------------------------------------------------------
-- Operations that arrive as they were sent
-- ---------------------------------------------------------------------------

/-- All members are in the order that maps keep, all numbers are integers that fit, and nothing is
nested too deep. -/
structure IsPlain (operation : Operation) : Prop where
  args : ∀ v ∈ operation.args, v.Sorted
  order : InOrder operation.kwargs
  kwargs : ∀ m ∈ operation.kwargs, m.2.Sorted
  numbers : operation.toDocument.Only Number.IsInteger
  depth : operation.toDocument.depth ≤ Document.maxDepth

theorem only_toDocument {operation : Operation} :
    operation.toDocument.Only p ↔ (∀ v ∈ operation.args, v.toDocument.Only p) ∧
      ∀ m ∈ operation.kwargs, m.2.toDocument.Only p := by
  obtain ⟨type, target, args, kwargs⟩ := operation
  cases target <;>
    simp only [toDocument, Document.ofPresent, Option.map, Document.only_object,
      Document.only_array, List.forall_mem_append, List.forall_mem_cons, List.forall_mem_map,
      Document.only_string]
  · simp
  · simp

theorem depth_toDocument_le {operation : Operation} :
    operation.toDocument.depth ≤ n + 2 ↔ (∀ v ∈ operation.args, v.toDocument.depth ≤ n) ∧
      ∀ m ∈ operation.kwargs, m.2.toDocument.depth ≤ n := by
  obtain ⟨type, target, args, kwargs⟩ := operation
  cases target <;>
    simp only [toDocument, Document.ofPresent, Option.map, Document.depth_object_le,
      Document.depth_array_le, List.forall_mem_append, List.forall_mem_cons, List.forall_mem_map,
      Document.depth_string]
  · simp
  · simp

structure IsPortable (operation : Operation) : Prop where
  args : ∀ v ∈ operation.args, v.Sorted
  order : InOrder operation.kwargs
  kwargs : ∀ m ∈ operation.kwargs, m.2.Sorted
  numbers : operation.toDocument.Only Number.ReadsBack
  depth : operation.toDocument.depth ≤ Document.maxDepth

theorem IsPlain.isPortable {operation : Operation} (h : operation.IsPlain) :
    operation.IsPortable :=
  ⟨h.args, h.order, h.kwargs, h.numbers.mono fun _ => Number.IsInteger.readsBack, h.depth⟩

section

attribute [local simp] Decoder.string bind Except.bind Except.map

theorem IsPortable.decoder_toDocument {operation : Operation} (h : operation.IsPortable)
    (source : Source) : decoder source operation.toDocument = .ok operation := by
  obtain ⟨type, target, args, kwargs⟩ := operation
  obtain ⟨argsNumbers, kwargsNumbers⟩ := only_toDocument.mp h.numbers
  have positional : Decoder.Reads (.list .json) (.array (args.map Json.toDocument)) args :=
    Decoder.reads_list fun v hv =>
      Decoder.reads_json (h.args v hv) ((argsNumbers v hv).mono fun _ => Number.ReadsBack.isFinite)
  have named : Decoder.Reads (.dictionary .json)
      (.object (kwargs.map fun m => (m.1, m.2.toDocument))) kwargs :=
    Decoder.reads_dictionary h.order fun m hm =>
      Decoder.reads_json (h.kwargs m hm)
        ((kwargsNumbers m hm).mono fun _ => Number.ReadsBack.isFinite)
  cases target
  · simp [decoder, toDocument, Document.ofPresent, positional.asWritten, named.asWritten]
  · simp [decoder, toDocument, Document.ofPresent, positional.asWritten, named.asWritten,
      Decoder.nullable]

end

theorem IsPortable.decode_encode {operation : Operation} (h : operation.IsPortable)
    (typed : operation.operationType ≠ "") : decode operation.encode = .ok operation := by
  have read : decoder.ofText operation.encode = .ok operation :=
    (Decoder.ofText_text decoder h.numbers h.depth).trans (h.decoder_toDocument .text)
  simp [decode, Coded.ofText, Coded.decoder, read, bind, Except.bind, typed]

theorem isPlain_of_bare {operation : Operation} (hargs : operation.args = [])
    (hkwargs : operation.kwargs = []) : operation.IsPlain where
  args := by simp [hargs]
  order := by simp [hkwargs, inOrder_nil]
  kwargs := by simp [hkwargs]
  numbers := only_toDocument.mpr (by simp [hargs, hkwargs])
  depth := (depth_toDocument_le (n := 125)).mpr (by simp [hargs, hkwargs])

theorem IsPlain.withoutWaitTimeout {operation : Operation} (h : operation.IsPlain) :
    operation.withoutWaitTimeout.IsPlain := by
  obtain ⟨argsPlain, kwargsPlain⟩ := only_toDocument.mp h.numbers
  obtain ⟨argsDepth, kwargsDepth⟩ := (depth_toDocument_le (n := 125)).mp h.depth
  exact {
    args := h.args
    order := h.order.filter _
    kwargs := fun m hm => h.kwargs m (List.mem_filter.mp hm).1
    numbers := only_toDocument.mpr
      ⟨argsPlain, fun m hm => kwargsPlain m (List.mem_filter.mp hm).1⟩
    depth := (depth_toDocument_le (n := 125)).mpr
      ⟨argsDepth, fun m hm => kwargsDepth m (List.mem_filter.mp hm).1⟩ }

end Operation

end Federation
