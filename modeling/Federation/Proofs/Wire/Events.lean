import Federation.Proofs.Time.Reading
import Federation.Proofs.Wire.Operations

/-!
# Operations and events that are sent on

An operation or an event arrives as it was sent. What arrived in another form, as a list of its
fields, with fields that nobody knows, or with a time of another zone, is from then on the same
whenever it is sent on. For that the times in an event that was read have to be such as can be
written, and the arguments of an operation must not nest deeper in what is written than they did in
what was read.
-/

namespace Federation

-- ---------------------------------------------------------------------------
-- Operations
-- ---------------------------------------------------------------------------

namespace Operation

theorem isPlain_of_decode {operation : Operation} (h : decode body = .ok operation)
    (numbers : operation.toDocument.Only Number.IsInteger) : operation.IsPlain := by
  have within := within_of_decode h
  exact {
    args := fun v hv => (within.args v hv).sorted
    order := within.order
    kwargs := fun m hm => (within.kwargs m hm).sorted
    numbers
    depth := (depth_toDocument_le (n := 125)).mpr
      ⟨fun v hv => (within.args v hv).depth, fun m hm => (within.kwargs m hm).depth⟩ }

theorem decode_encode_of_decode {operation : Operation} (h : decode body = .ok operation)
    (numbers : operation.toDocument.Only Number.IsInteger) :
    decode operation.encode = .ok operation :=
  (isPlain_of_decode h numbers).isPortable.decode_encode (exists_ofText h).2

end Operation

-- ---------------------------------------------------------------------------
-- Events as they are written
-- ---------------------------------------------------------------------------

section

attribute [local simp] Decoder.string bind Except.bind Except.map

theorem UserUpdate.decoder_toDocument {update : UserUpdate} (h : update.timestamp.Valid)
    (source : Source) : decoder source update.toDocument = .ok update := by
  have user := update.user.reads
  have time := Decoder.reads_instant h
  simp [decoder, toDocument, user.asWritten, time.asWritten]

theorem UserUpdate.plain_toDocument (update : UserUpdate) :
    update.toDocument.Only p ∧ update.toDocument.depth ≤ 6 := by
  obtain ⟨only, depth⟩ := SyncedUser.plain_toDocument (p := p) update.user
  constructor
  · simp [toDocument, Document.only_object, only]
  · simp [toDocument, Document.depth_object_le, depth]

namespace EventPayload

def update : EventPayload → UserUpdate
  | .userUpdated update => update

/-- The name comes first, so the content is read as it stands. -/
theorem decoder_toDocument {payload : EventPayload} (h : payload.update.timestamp.Valid)
    (source : Source) : decoder source payload.toDocument = .ok payload := by
  obtain ⟨update⟩ := payload
  have content : contentDecoder source update.toDocument = .ok (.userUpdated update) :=
    congrArg (Except.map userUpdated) (UserUpdate.decoder_toDocument h source)
  have kind : kindDecoder source (.string "USER_UPDATED") = .ok () := by cases source <;> rfl
  simp [decoder, toDocument, part?, ofParts, ofParts.finish, name, kind, content]

theorem plain_toDocument (payload : EventPayload) :
    payload.toDocument.Only p ∧ payload.toDocument.depth ≤ 7 := by
  obtain ⟨update⟩ := payload
  obtain ⟨only, depth⟩ := update.plain_toDocument (p := p)
  constructor
  · simp [toDocument, Document.only_object, only]
  · simp [toDocument, Document.depth_object_le, depth]

end EventPayload

namespace GardenEvent

structure Valid (event : GardenEvent) : Prop where
  timestamp : event.timestamp.Valid
  update : event.payload.update.timestamp.Valid

variable {event : GardenEvent}

theorem Valid.decoder_toDocument (h : event.Valid) (source : Source) :
    decoder source event.toDocument = .ok event := by
  have time := Decoder.reads_instant h.timestamp
  have payload := EventPayload.decoder_toDocument h.update
  simp [decoder, toDocument, time.asWritten, payload]

theorem plain_toDocument (event : GardenEvent) :
    event.toDocument.Only p ∧ event.toDocument.depth ≤ 8 := by
  obtain ⟨only, depth⟩ := event.payload.plain_toDocument (p := p)
  constructor
  · simp [toDocument, Document.only_object, only]
  · simp [toDocument, Document.depth_object_le, depth]

theorem Valid.decode_encode (h : event.Valid) : decode event.encode = .ok event := by
  obtain ⟨only, depth⟩ := event.plain_toDocument (p := Number.ReadsBack)
  have read : decoder.ofText event.encode = .ok event :=
    (Decoder.ofText_text decoder only (Nat.le_trans depth (by decide))).trans
      (h.decoder_toDocument .text)
  simp [decode, Coded.ofText, Coded.decoder, read]

end GardenEvent

end

-- ---------------------------------------------------------------------------
-- Events as they are read
-- ---------------------------------------------------------------------------

theorem Decoder.yields_instant {P : Document → Prop} : instant.Yields P Instant.Valid := by
  intro source d t _ read
  cases d with
  | string text =>
    cases parsed : Rfc3339.read text with
    | error e =>
      rw [instant, parsed] at read
      cases read
    | ok t =>
      rw [instant, parsed] at read
      cases read
      exact Rfc3339.valid_of_read parsed
  | _ => cases read

theorem UserUpdate.yields_decoder :
    decoder.Yields (fun _ => True) fun update => update.timestamp.Valid := by
  have garden : (Form.required "garden" .string).Yields (fun _ => True) (fun _ => True) _ :=
    Form.yields_field (Decoder.yields_any _) (by simp)
  have user : (Form.required "user" SyncedUser.decoder).Yields (fun _ => True) (fun _ => True) _ :=
    Form.yields_field (Decoder.yields_any _) (by simp)
  have time : (Form.required "timestamp" .instant).Yields (fun _ => True) Instant.Valid _ :=
    Form.yields_field Decoder.yields_instant (by simp)
  have made : (Form.pure UserUpdate.mk).Yields (fun _ => True)
      (fun make => ∀ garden, True → ∀ user, True → ∀ time, Instant.Valid time →
        (make garden user time).timestamp.Valid) _ :=
    Form.yields_pure fun _ _ _ _ _ time => time
  exact (((made.both garden).both user).both time).decode_of (by simp) (by simp) _

namespace EventPayload

theorem exists_content {source : Source} {parts : List Part} {payload : EventPayload}
    (read : ofParts source parts = .ok payload) :
    ∃ source content, contentDecoder source content = .ok payload := by
  have finished {found : EventPayload} {rest : List Part}
      (h : ofParts.finish found rest = .ok payload) : found = payload := by
    cases rest with
    | nil => exact Except.ok.inj h
    | cons part rest => cases part <;> cases h
  unfold ofParts at read
  split at read
  · cases read
  · cases read
  · obtain ⟨-, -, read⟩ := bind_ok read
    split at read
    · cases read
    · cases read
    · cases read
    · obtain ⟨found, content, read⟩ := bind_ok read
      exact ⟨_, _, finished read ▸ content⟩
  · split at read
    · cases read
    · cases read
    · cases read
    · cases read
    · obtain ⟨-, -, read⟩ := bind_ok read
      obtain ⟨found, content, read⟩ := bind_ok read
      exact ⟨_, _, finished read ▸ content⟩

theorem yields_decoder :
    decoder.Yields (fun _ => True) fun payload => payload.update.timestamp.Valid := by
  have content : contentDecoder.Yields (fun _ => True)
      fun payload => payload.update.timestamp.Valid := by
    intro source d payload known read
    obtain ⟨update, decoded, rfl⟩ := map_ok.mp read
    exact UserUpdate.yields_decoder source d update known decoded
  intro source d payload _ read
  cases d with
  | object members =>
    obtain ⟨_, _, decoded⟩ := exists_content read
    exact content _ _ _ trivial decoded
  | array items =>
    cases items with
    | nil => cases read
    | cons tag rest =>
      obtain ⟨-, -, read⟩ := bind_ok read
      cases rest with
      | nil => cases read
      | cons item rest =>
        obtain ⟨found, decoded, read⟩ := bind_ok read
        obtain ⟨-, rfl⟩ := ite_ok read
        exact content _ _ _ trivial decoded
  | _ => cases read

end EventPayload

namespace GardenEvent

theorem yields_decoder : decoder.Yields (fun _ => True) Valid := by
  have garden : (Form.required "garden" .string).Yields (fun _ => True) (fun _ => True) _ :=
    Form.yields_field (Decoder.yields_any _) (by simp)
  have time : (Form.required "timestamp" .instant).Yields (fun _ => True) Instant.Valid _ :=
    Form.yields_field Decoder.yields_instant (by simp)
  have payload : (Form.required "payload" EventPayload.decoder).Yields (fun _ => True)
      (fun payload => payload.update.timestamp.Valid) _ :=
    Form.yields_field EventPayload.yields_decoder (by simp)
  have made : (Form.pure GardenEvent.mk).Yields (fun _ => True)
      (fun make => ∀ garden, True → ∀ time, Instant.Valid time →
        ∀ payload : EventPayload, payload.update.timestamp.Valid →
          (make garden time payload).Valid) _ :=
    Form.yields_pure fun _ _ _ time _ payload => ⟨time, payload⟩
  exact (((made.both garden).both time).both payload).decode_of (by simp) (by simp) _

theorem valid_of_decode {event : GardenEvent} (h : decode body = .ok event) : event.Valid := by
  cases read : (Coded.ofText body : Except DecodeError GardenEvent) with
  | error e =>
    rw [decode, read] at h
    cases h
  | ok found =>
    rw [decode, read] at h
    cases h
    exact yields_decoder _ _ _ trivial (Decoder.document_of_ofText read)

end GardenEvent

-- ---------------------------------------------------------------------------
-- Sent on
-- ---------------------------------------------------------------------------

/-- An operation that has a type and an event arrive as they were sent, and what arrived, in
whatever form, arrives as the same again when it is sent on. -/
theorem decode_encode_stable :
    (∀ operation : Operation, operation.operationType ≠ "" → operation.IsPlain →
      Operation.decode operation.encode = .ok operation) ∧
    (∀ event : GardenEvent, event.Valid → GardenEvent.decode event.encode = .ok event) ∧
    (∀ body operation, Operation.decode body = .ok operation →
      operation.toDocument.Only Number.IsInteger →
        Operation.decode operation.encode = .ok operation) ∧
    (∀ body event, GardenEvent.decode body = .ok event →
      GardenEvent.decode event.encode = .ok event) :=
  ⟨fun _ typed plain => plain.isPortable.decode_encode typed, fun _ valid => valid.decode_encode,
    fun _ _ read numbers => Operation.decode_encode_of_decode read numbers,
    fun _ _ read => (GardenEvent.valid_of_decode read).decode_encode⟩

def nested : Operation where
  operationType := "JOB_READ"
  targetGardenName := some ""
  args := [.array [.object [("least", .number (.int (-9223372036854775808)))]]]
  kwargs := [("job_id", .null)]

def counted : Operation where
  operationType := "JOB_READ"
  args := [.number (.int 18446744073709551615)]

def listed : Document :=
  .array [.string "JOB_READ", .null, .array [.number (.int 18446744073709551615)]]

def zoned : String :=
  "[\"hall\",\"2024-02-29T23:30:00-01:00\"," ++
    "[\"USER_UPDATED\",[\"hall\",[\"ada\",[]],\"2024-02-29 22:30:60.5z\"]]]"

def shifted : GardenEvent :=
  ⟨"hall", ⟨⟨2024, 3, 1⟩, 0, 30, 0, 0⟩,
    .userUpdated ⟨"hall", { username := "ada" }, ⟨⟨2024, 2, 29⟩, 22, 30, 59, 1500000000⟩⟩⟩

def reported : GardenEvent :=
  .userUpdated "hall" {
    username := "ada"
    roleAssignments := [⟨⟨"reader", ["read"]⟩, .garden "hall"⟩, ⟨⟨"guest", []⟩, .global⟩]
    hashedPassword := some "credential" } ⟨⟨2024, 2, 29⟩, 22, 30, 0, 1⟩

theorem decode_encode_stable_samples :
    Operation.decode nested.encode = .ok nested ∧
    GardenEvent.decode reported.encode = .ok reported ∧
    (Operation.decode listed.text = .ok counted ∧
      Operation.decode counted.encode = .ok counted) ∧
    (GardenEvent.decode zoned = .ok shifted ∧
      GardenEvent.decode shifted.encode = .ok shifted) := by
  have plain : nested.IsPlain := {
    args := by simp [nested, Json.Sorted, Json.SortedItems, Json.SortedMembers]
    order := by simp [nested, InOrder]
    kwargs := by simp [nested, Json.Sorted]
    numbers := Operation.only_toDocument.mpr (by
      simp [nested, Json.toDocument, Json.toDocumentItems, Json.toDocumentMembers, Document.Only,
        Document.OnlyItems, Document.OnlyMembers, Number.IsInteger])
    depth := by decide }
  have time : Instant.Valid ⟨⟨2024, 2, 29⟩, 22, 30, 0, 1⟩ :=
    ⟨by decide, by decide, by decide, by decide, .inl (by decide)⟩
  have read : Operation.decode listed.text = .ok counted := by
    have greatest : Number.IsInteger (.int 18446744073709551615) := by simp [Number.IsInteger]
    have integers : listed.Only Number.ReadsBack := by
      simp [listed, Document.Only, Document.OnlyItems, greatest.readsBack]
    have decoded : Operation.decoder.ofText listed.text = .ok counted :=
      (Decoder.ofText_text Operation.decoder integers (by decide)).trans rfl
    simp [Operation.decode, Coded.ofText, Coded.decoder, decoded, counted, bind, Except.bind]
  have numbers : counted.toDocument.Only Number.IsInteger :=
    Operation.only_toDocument.mpr (by
      simp [counted, Json.toDocument, Document.Only, Number.IsInteger])
  have zone : GardenEvent.decode zoned = .ok shifted := by decide +kernel
  obtain ⟨operations, events, operationsAgain, eventsAgain⟩ := decode_encode_stable
  exact ⟨operations nested (by decide) plain, events reported ⟨time, time⟩,
    ⟨read, operationsAgain listed.text counted read numbers⟩, zone, eventsAgain zoned shifted zone⟩

end Federation
