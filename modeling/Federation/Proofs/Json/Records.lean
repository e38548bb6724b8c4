import Federation.Event
import Federation.Operation
import Federation.Outcome
import Federation.Proofs.Json.Values

/-!
# Records that are read back

A record is read back from the document that is written for it and from the
value that this document stands for, where the fields come in another order.
Each kind of field has a rule of its own, and a record is read back once its
fields are.
-/

namespace Federation

open Number (IsFinite)

@[simp] theorem mapError_ok (f : ε → ε') (x : α) : (Except.ok x).mapError f = .ok x := rfl

@[simp] theorem mapError_error (f : ε → ε') (e : ε) :
    (.error e : Except ε α).mapError f = .error (f e) := rfl

theorem bind_ok {x : Except ε α} {f : α → Except ε β} (h : x >>= f = .ok y) :
    ∃ a, x = .ok a ∧ f a = .ok y := by
  cases x with
  | error e => cases h
  | ok a => exact ⟨a, rfl, h⟩

theorem bind_error {x : Except ε α} {f : α → Except ε β} (h : x >>= f = .error e) :
    x = .error e ∨ ∃ a, x = .ok a ∧ f a = .error e := by
  cases x with
  | ok a => exact .inr ⟨a, rfl, h⟩
  | error fault =>
    cases h
    exact .inl rfl

theorem mapError_ne {x : Except ε α} {f : ε → ε'} {e : ε'} (h : ∀ fault, f fault ≠ e) :
    x.mapError f ≠ .error e := by
  cases x with
  | ok a => nofun
  | error fault => exact fun same => h fault (Except.error.inj same)

theorem map_ok {result : Except ε α} : result.map f = .ok y ↔ ∃ x, result = .ok x ∧ f x = y := by
  cases result <;> simp [Except.map]

attribute [simp] Form.decode Form.fillAll Form.both Form.pure Form.required Form.optional Form.field

namespace Decoder

/-- The document is read as `x`, both as it stands and as the value it stands for. -/
structure Reads (decoder : Decoder α) (d : Document) (x : α) : Prop where
  asWritten (source : Source) : decoder source d = .ok x
  asValue (source : Source) : decoder source d.toJson.toDocument = .ok x

-- ---------------------------------------------------------------------------
-- Fields
-- ---------------------------------------------------------------------------

theorem Reads.ofText {decoder : Decoder α} (h : decoder.Reads d x) (hd : d.Only Number.ReadsBack)
    (hn : d.depth ≤ Document.maxDepth) : decoder.ofText d.text = .ok x := by
  rw [ofText_text decoder hd hn, h.asWritten]

theorem Reads.map {decoder : Decoder α} (h : decoder.Reads d x) (f : α → β) :
    (decoder.map f).Reads d (f x) := by
  constructor <;> intro source
  · simp [Decoder.map, h.asWritten source, Except.map]
  · simp [Decoder.map, h.asValue source, Except.map]

theorem reads_string (s : String) : Reads .string (.string s) s := ⟨fun _ => rfl, fun _ => rfl⟩

theorem reads_json {v : Json} (hs : v.Sorted) (hn : v.toDocument.Only IsFinite) :
    Reads .json v.toDocument v := by
  have same := Json.toJson_toDocument hs hn
  refine ⟨fun source => ?_, fun source => ?_⟩
  · rw [json_of_only hn, same]
  · rw [same, json_of_only hn, same]

theorem items_map {decoder : Decoder α} {source : Source} {write : α → Document}
    {items : List α} (h : ∀ x ∈ items, decoder source (write x) = .ok x) :
    Decoder.items decoder source (items.map write) = .ok items := by
  induction items with
  | nil => rfl
  | cons x rest ih =>
    simp [Decoder.items, h x, ih fun y hy => h y (List.mem_cons_of_mem _ hy), bind, Except.bind]

theorem reads_list {decoder : Decoder α} {write : α → Document} {items : List α}
    (h : ∀ x ∈ items, decoder.Reads (write x) x) :
    Reads (.list decoder) (.array (items.map write)) items := by
  refine ⟨fun source => ?_, fun source => ?_⟩
  · have parts := items_map fun x hx => (h x hx).asWritten source
    simpa [list] using parts
  · have parts := items_map fun x hx => (h x hx).asValue source
    simpa [list, Function.comp_def] using parts

theorem reads_texts (texts : List String) : Reads (.list .string) (.ofTexts texts) texts :=
  reads_list fun s _ => reads_string s

theorem members_map {decoder : Decoder α} {source : Source} {write : α → Document}
    {members : List (String × α)}
    (h : ∀ m ∈ members, decoder source (write m.2) = .ok m.2) :
    Decoder.members decoder source (members.map fun m => (m.1, write m.2)) = .ok members := by
  induction members with
  | nil => rfl
  | cons m rest ih =>
    simp [Decoder.members, h m, ih fun p hp => h p (List.mem_cons_of_mem _ hp), bind, Except.bind]

theorem reads_dictionary {decoder : Decoder α} {write : α → Document}
    {members : List (String × α)} (order : InOrder members)
    (h : ∀ m ∈ members, decoder.Reads (write m.2) m.2) :
    Reads (.dictionary decoder) (.object (members.map fun m => (m.1, write m.2))) members := by
  refine ⟨fun source => ?_, fun source => ?_⟩
  · have parts := members_map fun m hm => (h m hm).asWritten source
    simp only [dictionary, parts]
    simp [Except.map, order.sortMembers_eq]
  · have sorted : InOrder (members.map fun m => (m.1, (write m.2).toJson)) := by
      simpa [InOrder, Function.comp_def] using order
    have parts := @members_map _ decoder source (fun x => (write x).toJson.toDocument) members
      fun m hm => (h m hm).asValue source
    simp only [Document.toJson_object, Json.toDocument_object, List.map_map, Function.comp_def,
      sorted.sortMembers_eq, dictionary, parts]
    simp [Except.map, order.sortMembers_eq]

end Decoder

-- ---------------------------------------------------------------------------
-- Roles and users
-- ---------------------------------------------------------------------------

section

attribute [local simp] Decoder.string bind Except.bind Except.map

-- The names of a record are put in order one by one.
attribute [local simp] sortMembers insertMember_nil insertMember_before insertMember_behind

theorem Role.reads (role : Role) : Role.decoder.Reads role.toDocument role := by
  have permissions := Decoder.reads_texts role.permissions
  constructor <;> intro source
  · simp [Role.decoder, Role.toDocument, permissions.asWritten]
  · simp (disch := decide) [Role.decoder, Role.toDocument, permissions.asValue]

theorem RoleDomain.reads (domain : RoleDomain) :
    RoleDomain.decoder.Reads domain.toDocument domain := by
  constructor <;> intro source <;> cases domain
  all_goals
    simp (disch := decide) [RoleDomain.decoder, RoleDomain.toDocument, RoleDomain.scope,
      RoleDomain.identifiers, Decoder.andThen, Decoder.dictionary, Decoder.members, ofScope,
      identifier]

theorem RoleAssignment.reads (assignment : RoleAssignment) :
    RoleAssignment.decoder.Reads assignment.toDocument assignment := by
  have role := assignment.role.reads
  have domain := assignment.domain.reads
  constructor <;> intro source
  · simp [RoleAssignment.decoder, RoleAssignment.toDocument, role.asWritten, domain.asWritten]
  · simp (disch := decide) [RoleAssignment.decoder, RoleAssignment.toDocument, role.asValue,
      domain.asValue]

theorem RoleAssignment.reads_list (assignments : List RoleAssignment) :
    Decoder.Reads (.list decoder) (listDocument assignments) assignments :=
  Decoder.reads_list fun assignment _ => assignment.reads

theorem RoleAssignment.plain_listDocument (assignments : List RoleAssignment) :
    (listDocument assignments).Only p ∧ (listDocument assignments).depth ≤ 4 := by
  have role (role : Role) : role.toDocument.Only p ∧ role.toDocument.depth ≤ 2 := by
    constructor
    · simp [Role.toDocument, Document.only_object, Document.only_array, Document.ofTexts]
    · simp [Role.toDocument, Document.depth_object_le, Document.depth_array_le, Document.ofTexts]
  have domain (domain : RoleDomain) :
      domain.toDocument.Only p ∧ domain.toDocument.depth ≤ 2 := by
    cases domain
    all_goals
      simp [RoleDomain.toDocument, RoleDomain.identifiers, Document.only_object,
        Document.depth_object_le]
  constructor
  · rw [listDocument, Document.only_array, List.forall_mem_map]
    intro assignment _
    simp [toDocument, Document.only_object, role, domain]
  · rw [listDocument, Document.depth_array_le, List.forall_mem_map]
    intro assignment _
    simp [toDocument, Document.depth_object_le, role, domain]

theorem RoleAssignment.ofText_text (assignments : List RoleAssignment) :
    (Decoder.list decoder).ofText (listDocument assignments).text = .ok assignments := by
  obtain ⟨only, depth⟩ := plain_listDocument (p := Number.ReadsBack) assignments
  refine (reads_list assignments).ofText only (Nat.le_trans depth ?_)
  decide

theorem SyncedUser.reads (user : SyncedUser) : SyncedUser.decoder.Reads user.toDocument user := by
  obtain ⟨username, assignments, credential⟩ := user
  have list := RoleAssignment.reads_list assignments
  constructor <;> intro source <;> cases credential
  · simp [SyncedUser.decoder, SyncedUser.toDocument, Document.ofPresent, list.asWritten]
  · simp [SyncedUser.decoder, SyncedUser.toDocument, Document.ofPresent, list.asWritten,
      Decoder.nullable]
  · simp (disch := decide) [SyncedUser.decoder, SyncedUser.toDocument, Document.ofPresent,
      list.asValue]
  · simp (disch := decide) [SyncedUser.decoder, SyncedUser.toDocument, Document.ofPresent,
      list.asValue, Decoder.nullable]

theorem SyncedUser.plain_toDocument (user : SyncedUser) :
    user.toDocument.Only p ∧ user.toDocument.depth ≤ 5 := by
  obtain ⟨only, depth⟩ := RoleAssignment.plain_listDocument (p := p) user.roleAssignments
  constructor
  · cases h : user.hashedPassword <;>
      simp [toDocument, h, Document.ofPresent, Document.only_object, only]
  · cases h : user.hashedPassword <;>
      simp [toDocument, h, Document.ofPresent, Document.depth_object_le, depth]

theorem SyncedUser.ofJson_toJson (user : SyncedUser) : ofJson user.toDocument.toJson = .ok user := by
  simp [ofJson, Decoder.ofJson, user.reads.asValue]

-- ---------------------------------------------------------------------------
-- What travels between gardens
-- ---------------------------------------------------------------------------

theorem FailureKind.reads (kind : FailureKind) :
    FailureKind.decoder.Reads kind.toDocument kind := by
  constructor <;> intro source <;> cases kind <;> cases source <;> rfl

theorem ErrorMessage.reads (error : ErrorMessage) :
    ErrorMessage.decoder.Reads error.toDocument error := by
  have kind := error.errorType.reads
  constructor <;> intro source
  · have h := kind.asWritten source
    simp only [FailureKind.toDocument] at h
    simp [ErrorMessage.decoder, ErrorMessage.toDocument, h]
  · have h := kind.asValue source
    simp only [FailureKind.toDocument, Document.toJson, Json.toDocument] at h
    simp (disch := decide) [ErrorMessage.decoder, ErrorMessage.toDocument, h]

end

end Federation
