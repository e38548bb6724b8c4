import Federation.Proofs.Routing
import Federation.Proofs.Store.Users

/-!
# What an import does to the rows

An import of one record changes at most the row under its name, and stores nothing besides. A row
that cannot be read is left as it is. Whatever a record says, taking it in never fails and sends
nothing; a user that is stored is announced.
-/

namespace Federation

section Upsert

variable [DecidableEq κ] {key : α → κ} {row : α} {rows : List α}

theorem upsertBy_of_find? (h : rows.find? (fun r => key r = key row) = some row) :
    upsertBy key row rows = rows := by
  induction rows with
  | nil => cases h
  | cons first rest ih =>
    rw [upsertBy]
    split
    case isTrue same =>
      rw [List.find?_cons_of_pos (by simpa using same)] at h
      rw [Option.some.inj h]
    case isFalse other =>
      rw [List.find?_cons_of_neg (by simpa using other)] at h
      rw [ih h]

theorem find?_isSome_iff {k : κ} :
    (rows.find? fun r => key r = k).isSome = true ↔ k ∈ rows.map key := by
  simp [List.find?_isSome]

end Upsert

namespace Users

open Federation.Action

def accepted? (record : Json) : Option SyncedUser :=
  (SyncedUser.ofJson record).toOption.filter fun synced => (validateUsername synced.username).isOk

def saidOf (username : String) (records : List Json) : List SyncedUser :=
  (records.filterMap accepted?).filter fun synced => synced.username = username

def taken (synced : SyncedUser) : Option User → Option User
  | none =>
    if synced.roleAssignments.isEmpty then none
    else some ⟨synced.username, synced.hashedPassword, synced.roleAssignments⟩
  | some user =>
    some ⟨user.username, synced.hashedPassword.or user.password, synced.roleAssignments⟩

-- ---------------------------------------------------------------------------
-- One record and one row
-- ---------------------------------------------------------------------------

/-- What becomes of the row under a name when a record for it is taken in. A row that cannot be
read stays as it is. -/
def rowTaken (synced : SyncedUser) : Option UserRow → Option UserRow
  | none => (taken synced none).map .ofUser
  | some row =>
    match row.toUser with
    | .error _ => some row
    | .ok user => (taken synced (some user)).map .ofUser

def takeRow (rows : List UserRow) (synced : SyncedUser) : List UserRow :=
  match rowTaken synced (rows.find? fun row => row.username = synced.username) with
  | none => rows
  | some row => upsertBy UserRow.username row rows

theorem rowTaken_none (synced : SyncedUser) :
    rowTaken synced none =
      if synced.roleAssignments = [] then none
      else some (.ofUser ⟨synced.username, synced.hashedPassword, synced.roleAssignments⟩) := by
  simp only [rowTaken, taken, List.isEmpty_iff]
  split <;> rfl

theorem rowTaken_readable {row : UserRow} (h : row.toUser = .ok user) (synced : SyncedUser) :
    rowTaken synced (some row) =
      some (.ofUser ⟨user.username, synced.hashedPassword.or user.password,
        synced.roleAssignments⟩) := by
  simp only [rowTaken, h, taken, Option.map_some]

theorem rowTaken_unreadable {row : UserRow} (h : row.toUser = .error e) (synced : SyncedUser) :
    rowTaken synced (some row) = some row := by
  simp only [rowTaken, h]

theorem exists_rowTaken_some (synced : SyncedUser) (row : UserRow) :
    ∃ after, rowTaken synced (some row) = some after ∧ after.username = row.username := by
  cases hread : row.toUser with
  | error e => exact ⟨row, rowTaken_unreadable hread synced, rfl⟩
  | ok user => exact ⟨_, rowTaken_readable hread synced, UserRow.username_toUser hread⟩

/-- Taking a record in either creates the user, at the end of the table, or puts another row in the
place of the one that was there, or does nothing about a user that is not there. -/
theorem takeRow_cases (rows : List UserRow) (synced : SyncedUser) :
    (synced.username ∉ rows.map UserRow.username ∧ synced.roleAssignments = [] ∧
      rowTaken synced (rows.find? fun row => row.username = synced.username) = none ∧
      takeRow rows synced = rows) ∨
    (synced.username ∈ rows.map UserRow.username ∨ synced.roleAssignments ≠ []) ∧
      ∃ row, row.username = synced.username ∧
        rowTaken synced (rows.find? fun row => row.username = synced.username) = some row ∧
        takeRow rows synced = upsertBy UserRow.username row rows := by
  rw [takeRow]
  cases hfound : rows.find? fun row => row.username = synced.username with
  | some row =>
    have same : row.username = synced.username := by simpa using List.find?_some hfound
    obtain ⟨after, htaken, kept⟩ := exists_rowTaken_some synced row
    refine .inr ⟨.inl ?_, after, kept.trans same, htaken, by rw [htaken]⟩
    exact same ▸ List.mem_map_of_mem (List.mem_of_find?_eq_some hfound)
  | none =>
    have absent : synced.username ∉ rows.map UserRow.username := by
      rw [← find?_isSome_iff, hfound]
      exact Bool.false_ne_true
    rw [rowTaken_none]
    split
    case isTrue none_given => exact .inl ⟨absent, none_given, rfl, rfl⟩
    case isFalse given => exact .inr ⟨.inr given, _, rfl, rfl, rfl⟩

theorem find?_takeRow (rows : List UserRow) (synced : SyncedUser) (username : String) :
    (takeRow rows synced).find? (fun row => row.username = username) =
      if synced.username = username then
        rowTaken synced (rows.find? fun row => row.username = username)
      else rows.find? fun row => row.username = username := by
  obtain ⟨absent, -, skipped, same⟩ | ⟨-, row, named, htaken, same⟩ := takeRow_cases rows synced
  · rw [same]
    split
    case isTrue own =>
      subst own
      rw [skipped, ← Option.not_isSome_iff_eq_none, find?_isSome_iff]
      exact absent
    case isFalse => rfl
  · rw [same]
    split
    case isTrue own =>
      subst own
      rw [htaken, ← named, find?_upsertBy_self]
    case isFalse other =>
      exact find?_upsertBy_of_ne fun own => other (named.symm.trans own.symm)

theorem nodup_takeRow (keyed : (rows.map UserRow.username).Nodup) (synced : SyncedUser) :
    ((takeRow rows synced).map UserRow.username).Nodup := by
  obtain ⟨-, -, -, same⟩ | ⟨-, row, -, -, same⟩ := takeRow_cases rows synced
  · rwa [same]
  · rw [same]
    exact nodup_upsertBy keyed

-- ---------------------------------------------------------------------------
-- One record and the store
-- ---------------------------------------------------------------------------

section

variable {node : Node} {tables : Tables}

theorem accepted?_eq_some : accepted? record = some synced ↔
    SyncedUser.ofJson record = .ok synced ∧ validateUsername synced.username = .ok () := by
  rw [accepted?, Option.filter_eq_some_iff]
  have ok {result : Except ValidationError Unit} : result.isOk = true ↔ result = .ok () := by
    cases result <;> simp [Except.isOk, Except.toBool]
  rw [ok]
  cases SyncedUser.ofJson record <;> simp [Except.toOption]

theorem run_refused (node : Node) (h : accepted? record = none) :
    ∃ failure, (importRecord record).run node = (.error failure, node) := by
  cases hread : SyncedUser.ofJson record with
  | error e => exact ⟨.validation e, by simp [importRecord, hread]⟩
  | ok synced =>
    cases hname : validateUsername synced.username with
    | error e => exact ⟨.validation e, by simp [importRecord, hread, hname]⟩
    | ok => simp [accepted?_eq_some.mpr ⟨hread, hname⟩] at h

abbrev storeWith (tables : Tables) (users : List UserRow) : Store :=
  ⟨some { tables with users }, true⟩

theorem putUser_open (tables : Tables) (user : User) :
    Store.putUser ⟨some tables, true⟩ user =
      .ok (storeWith tables (upsertBy UserRow.username (.ofUser user) tables.users)) := by
  rw [Store.putUser, Store.statement_open]
  rfl

theorem user?_open (tables : Tables) (username : String) :
    Store.user? ⟨some tables, true⟩ username =
      match tables.users.find? fun row => row.username = username with
      | none => .ok none
      | some row => row.toUser.map some := by
  rw [Store.user?, Store.query_open]
  cases tables.users.find? fun row => row.username = username with
  | none => rfl
  | some row =>
    rw [Option.mapM_some]
    rfl

def updated (tables : Tables) (node : Node) (user : User) : Node :=
  { node with
    store := storeWith tables (upsertBy UserRow.username (.ofUser user) tables.users)
    readings := node.readings + 1
    events := node.events ++
      [.userUpdated node.name user.toSynced (node.supply.now node.readings)] }

def rowStored (synced : SyncedUser) : Option UserRow → Option User
  | none => taken synced none
  | some row => row.toUser.toOption.bind fun user => taken synced (some user)

def tookIn (tables : Tables) (node : Node) (synced : SyncedUser) : Node :=
  (rowStored synced (tables.users.find? fun row => row.username = synced.username)).elim node
    (updated tables node)

theorem store_tookIn (h : node.store = ⟨some tables, true⟩) (synced : SyncedUser) :
    (tookIn tables node synced).store = storeWith tables (takeRow tables.users synced) := by
  rw [tookIn, takeRow]
  cases hfound : tables.users.find? fun row => row.username = synced.username with
  | none =>
    rw [rowStored, rowTaken]
    cases taken synced none with
    | none => exact h
    | some user => rfl
  | some row =>
    have named : row.username = synced.username := by simpa using List.find?_some hfound
    cases hrow : row.toUser with
    | error e =>
      rw [← named] at hfound
      simp only [rowStored, hrow, Except.toOption, Option.bind_none, Option.elim_none, h,
        rowTaken_unreadable hrow, upsertBy_of_find? hfound]
    | ok user =>
      rw [rowTaken_readable hrow, rowStored, hrow]
      rfl

theorem supply_tookIn (tables : Tables) (node : Node) (synced : SyncedUser) :
    (tookIn tables node synced).supply = node.supply := by
  rw [tookIn]
  cases rowStored synced (tables.users.find? fun row => row.username = synced.username) <;> rfl

theorem run_update (h : node.store = ⟨some tables, true⟩) (user : User)
    (assignments : List RoleAssignment) (hashed : Option String) :
    ((update user { roleAssignments := some assignments } hashed).run node).2 =
      updated tables node ⟨user.username, hashed.or user.password, assignments⟩ := by
  cases hashed <;> simp [update, updated, h, putUser_open]

theorem run_importRecord (h : node.store = ⟨some tables, true⟩)
    (hr : accepted? record = some synced) :
    ((importRecord record).run node).2 = tookIn tables node synced := by
  obtain ⟨hread, hname⟩ := accepted?_eq_some.mp hr
  rw [importRecord, tookIn]
  simp only [run_bind, run_ofExcept, hread, hname, mapError_ok, run_query, h, user?_open]
  cases hfound : tables.users.find? fun row => row.username = synced.username with
  | some row =>
    cases hrow : row.toUser with
    | error e => simp only [rowStored, hrow, Except.map, Except.toOption, Option.bind_none,
        Option.elim_none]
    | ok user =>
      simp only [rowStored, hrow, Except.map, Except.toOption, run_discard]
      exact run_update h ..
  | none =>
    simp only [rowStored, taken]
    split
    case isTrue => rfl
    case isFalse =>
      -- The user is stored twice, first with nothing but its name.
      simp only [run_bind, run_change, h, putUser_open, run_discard]
      let user : User := ⟨synced.username, synced.hashedPassword, synced.roleAssignments⟩
      have same : (UserRow.ofUser { username := synced.username }).username =
        (UserRow.ofUser user).username := rfl
      rw [run_update rfl, Option.or_none]
      simp only [updated, Option.elim_some]
      rw [upsertBy_upsertBy same]

theorem run_tryImport_eq (h : node.store = ⟨some tables, true⟩) (record : Json) :
    ∃ logs, (tryImport record).run node =
      (.ok (), { (accepted? record).elim node (tookIn tables node) with logs }) := by
  have after : ((importRecord record).run node).2 =
      (accepted? record).elim node (tookIn tables node) := by
    cases hr : accepted? record with
    | none =>
      obtain ⟨failure, refused⟩ := run_refused node hr
      rw [refused]
      rfl
    | some synced => exact run_importRecord h hr
  rw [← after, tryImport, settle_log]
  rcases (importRecord record).run node with ⟨_ | _, _⟩ <;> exact ⟨_, rfl⟩

theorem run_tryImport_open (h : node.store = ⟨some tables, true⟩) (record : Json) :
    ∃ after, (tryImport record).run node = (.ok (), after) ∧
      node.Follows (fun _ => False) after ∧
      after.store =
        storeWith tables ((accepted? record).elim tables.users (takeRow tables.users)) := by
  obtain ⟨logs, ran⟩ := run_tryImport_eq h record
  have follows := does_tryImport (p := fun _ => False) record node
  rw [ran] at follows
  refine ⟨_, ran, follows, ?_⟩
  cases accepted? record with
  | none => exact h
  | some synced => exact store_tookIn h synced

end

end Users

end Federation
